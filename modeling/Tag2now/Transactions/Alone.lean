import Tag2now.Transactions.RelyGuarantee

/-! # One call with nobody else running

The outcomes of a call that runs to its end with no failure and no other transaction
in between. Such a call is a run of the interleaved system, so states reached by calls
one after another are reachable.
-/
namespace ReadCommitted
variable {σ Lock χ ε α : Type}

/-- `Eval r s out t`: alone on the committed database `s`, the rest of the program
ends in `out` and leaves `t` committed. -/
inductive Eval : Running σ Lock ε α → σ → Except ε α → σ → Prop
  | ret {a : α} {h : Held σ Lock} {v s} : h.due s → Eval ⟨.ret a,h,v⟩ s (.ok a) (h.pending s)
  | raise {e : ε} {h : Held σ Lock} {s} : Eval ⟨.raise e,h,none⟩ s (.error e) s
  | caught {e : ε} {h v : Held σ Lock} {f : ε → Prog σ Lock ε α} {s out t} :
      Eval ⟨f e,v,none⟩ s out t → Eval ⟨.raise e,h,some (f,v)⟩ s out t
  | stmt {β : Type} {st : Stmt σ Lock β} {k : β → Prog σ Lock ε α} {h : Held σ Lock} {v s out t}
      (o : Outcome σ Lock β) : st (h.pending s) o → Eval ⟨k o.result,h.after o,v⟩ s out t →
      Eval ⟨.stmt st k,h,v⟩ s out t
  | savepoint {f : ε → Prog σ Lock ε α} {k : Prog σ Lock ε α} {h : Held σ Lock} {v s out t} :
      Eval ⟨k,h,some (f,h)⟩ s out t → Eval ⟨.savepoint f k,h,v⟩ s out t
  | release {k : Prog σ Lock ε α} {h : Held σ Lock} {v s out t} :
      Eval ⟨k,h,none⟩ s out t → Eval ⟨.release k,h,v⟩ s out t
  | deadline {d : σ → Prop} {k : Prog σ Lock ε α} {h : Held σ Lock} {v s out t} :
      Eval ⟨k,h.within d,v⟩ s out t → Eval ⟨.deadline d k,h,v⟩ s out t

def Runs (p : Prog σ Lock ε α) (s : σ) (out : Except ε α) (t : σ) : Prop :=
  Eval ⟨p,.empty,none⟩ s out t

section Rules
variable {β : Type} {h : Held σ Lock} {v : Option ((ε → Prog σ Lock ε α) × Held σ Lock)} {s t : σ}
  {out : Except ε α} {k : β → Prog σ Lock ε α}

theorem eval_ret {a : α} : Eval ⟨.ret a,h,v⟩ s out t ↔ h.due s ∧ out = .ok a ∧ t = h.pending s := by
  constructor
  · rintro (⟨hdue⟩ | _)
    exact ⟨hdue,rfl,rfl⟩
  · rintro ⟨hdue,rfl,rfl⟩
    exact .ret hdue

theorem eval_raise {e : ε} : Eval ⟨.raise e,h,none⟩ s out t ↔ out = .error e ∧ t = s := by
  constructor
  · rintro (_ | _)
    exact ⟨rfl,rfl⟩
  · rintro ⟨rfl,rfl⟩
    exact .raise

theorem eval_perform {st : Stmt σ Lock β} : Eval ⟨Prog.perform st >>= k,h,v⟩ s out t ↔
    ∃ o, st (h.pending s) o ∧ Eval ⟨k o.result,h.after o,v⟩ s out t := by
  constructor
  · intro he
    cases he with
    | stmt o ho hk => exact ⟨o,ho,hk⟩
  · rintro ⟨o,ho,hk⟩
    exact .stmt o ho hk

theorem eval_query {f : σ → β} : Eval ⟨Prog.query f >>= k,h,v⟩ s out t ↔
    Eval ⟨k (f (h.pending s)),h,v⟩ s out t := by
  simp only [Prog.query,eval_perform,exists_eq_left,Held.after_read]

theorem eval_execute {f : σ → β} {locks : σ → Set Lock} {write : σ → σ → σ} :
    Eval ⟨Prog.execute f locks write >>= k,h,v⟩ s out t ↔
      Eval ⟨k (f (h.pending s)),
        ⟨write (h.pending s) ∘ h.pending,h.locks ∪ locks (h.pending s),h.due⟩,v⟩ s out t := by
  simp only [Prog.execute,eval_perform,exists_eq_left,Held.after]

theorem eval_ensure {p : Prop} [Decidable p] {e : ε} {k : Unit → Prog σ Lock ε α} (hp : p) :
    Eval ⟨Prog.ensure p e >>= k,h,v⟩ s out t ↔ Eval ⟨k (),h,v⟩ s out t := by
  unfold Prog.ensure
  rw [if_pos hp,Prog.ret_bind]

theorem eval_deadline {d : σ → Prop} {p : Prog σ Lock ε α} :
    Eval ⟨.deadline d p,h,v⟩ s out t ↔ Eval ⟨p,h.within d,v⟩ s out t := by
  constructor
  · intro he
    cases he with
    | deadline hk => exact hk
  · exact .deadline

end Rules

namespace State

/-- No open transaction but `u` holds a lock. -/
def Lockless (s : State σ Lock χ ε α) (u : ℕ) : Prop :=
  ∀ t c r, t ≠ u → s.running t = some (c,r) → r.held.locks = ∅

theorem put_put (s : State σ Lock χ ε α) (u : ℕ) (c : χ) (r r' : Running σ Lock ε α) :
    (s.put u c r).put u c r' = s.put u c r' := by simp [put]

theorem put_self {s : State σ Lock χ ε α} {u : ℕ} {c : χ} {r : Running σ Lock ε α}
    (h : s.running u = some (c,r)) : s.put u c r = s := by
  have hsame : Function.update s.running u (some (c,r)) = s.running := by rw [← h,Function.update_eq_self]
  simp [put,hsame]

theorem drop_put (s : State σ Lock χ ε α) (u : ℕ) (c : χ) (r : Running σ Lock ε α) :
    (s.put u c r).drop u = s.drop u := by simp [put,drop]

theorem drop_of_none {s : State σ Lock χ ε α} {u : ℕ} (h : s.running u = none) : s.drop u = s := by
  have hsame : Function.update s.running u none = s.running := by rw [← h,Function.update_eq_self]
  simp [drop,hsame]

theorem Lockless.free {s : State σ Lock χ ε α} {u : ℕ} (h : s.Lockless u) (c : χ)
    (r : Running σ Lock ε α) (L : Set Lock) : (s.put u c r).Free u L := by
  intro t c' r' hne ht
  rw [put_running,if_neg hne] at ht
  rw [h t c' r' hne ht]
  exact Set.disjoint_empty L

theorem Quiet.lockless {s : State σ Lock χ ε α} (h : s.Quiet) (u : ℕ) : s.Lockless u := by
  intro t c r _ ht
  rw [h t] at ht
  cases ht

end State

variable {S : System σ Lock χ ε α} {ok : χ → α → σ → Prop} {init : σ → Prop}

/-- A call's last step, after steps of its own that leave the committed database. -/
theorem Eval.lastStep {R : State σ Lock χ ε α → Prop}
    (hR : ∀ s s', R s → Step S ok s s' → s'.db = s.db → R s') {s : State σ Lock χ ε α} {u : ℕ} {c : χ}
    {r : Running σ Lock ε α} {out : Except ε α} {t : σ} (h : Eval r s.db out t) (hfree : s.Lockless u)
    (hok : ∀ a, out = .ok a → ok c a s.db) (hs : R (s.put u c r)) : ∃ s₁, R s₁ ∧ s₁.db = s.db ∧ s₁.log = s.log ∧
      Step S ok s₁ ⟨t,(s.drop u).running,(c,out) :: s.log⟩ := by
  have hrun (r : Running σ Lock ε α) : (s.put u c r).running u = some (c,r) := by
    rw [State.put_running,if_pos rfl]
  have hput {r r' : Running σ Lock ε α} (hs : R (s.put u c r))
      (hstep : Step S ok (s.put u c r) ((s.put u c r).put u c r')) : R (s.put u c r') := by
    rw [State.put_put] at hstep
    exact hR _ _ hs hstep rfl
  generalize hdb : s.db = db at h hok
  induction h with
  | @ret a h v _ hdue =>
    subst hdb
    have hstep := @Step.commit _ _ _ _ _ S ok (s.put u c ⟨.ret a,h,v⟩) u c _ a (hrun _) rfl hdue (hok a rfl)
    simp only [State.drop_put] at hstep
    exact ⟨_,hs,rfl,rfl,hstep⟩
  | @raise e h =>
    subst hdb
    have hstep := @Step.raise _ _ _ _ _ S ok (s.put u c ⟨.raise e,h,none⟩) u c _ e (hrun _) rfl rfl
    simp only [State.drop_put] at hstep
    exact ⟨_,hs,rfl,rfl,hstep⟩
  | @caught e _ _ _ _ _ _ _ ih => exact ih (hput hs (.fail e (hrun _) rfl)) hdb hok
  | stmt o ho _ ih =>
    subst hdb
    exact ih (hput hs (.stmt (hrun _) rfl ho (hfree.free _ _ _))) rfl hok
  | savepoint _ ih => exact ih (hput hs (.savepoint (hrun _) rfl)) hdb hok
  | release _ ih => exact ih (hput hs (.release (hrun _) rfl)) hdb hok
  | deadline _ ih => exact ih (hput hs (.deadline (hrun _) rfl)) hdb hok

/-- A transaction that runs to its end while the others wait, none of them with a lock. -/
theorem Eval.finish {s : State σ Lock χ ε α} {u : ℕ} {c : χ} {r : Running σ Lock ε α}
    {out : Except ε α} {t : σ} (h : Eval r s.db out t) (hfree : s.Lockless u)
    (hok : ∀ a, out = .ok a → ok c a s.db) (hs : Reachable S ok init (s.put u c r)) :
    Reachable S ok init ⟨t,(s.drop u).running,(c,out) :: s.log⟩ := by
  obtain ⟨_,hs₁,_,_,hstep⟩ := h.lastStep (fun _ _ hs hstep _ => hs.step hstep) hfree hok hs
  exact hs₁.step hstep

theorem Reachable.opens {s : State σ Lock χ ε α} (hs : Reachable S ok init s) {β : Type} {u : ℕ} {c : χ}
    {f : σ → β} {k : β → Prog σ Lock ε α} (hu : s.running u = none) (hc : S.body c = Prog.query f >>= k) :
    Reachable S ok init (s.put u c ⟨k (f s.db),.empty,none⟩) := by
  have hrun : (s.put u c ⟨S.body c,.empty,none⟩).running u = some (c,⟨S.body c,.empty,none⟩) := by
    rw [State.put_running,if_pos rfl]
  have hfree : (s.put u c ⟨S.body c,.empty,none⟩).Free u ∅ := fun _ _ r _ _ => Set.empty_disjoint r.held.locks
  have hstep := (hs.step (.start c hu)).step (.stmt hrun hc rfl hfree)
  rw [State.put_put,Held.after_read] at hstep
  exact hstep

theorem Reachable.environment {s : State σ Lock χ ε α} (hs : Reachable S ok init s) (db : σ)
    (h : S.env s.db db) : Reachable S ok init { s with db := db } := hs.step (.env h)

/-- A call that runs alone from a quiet state leads to a quiet state. -/
theorem Reachable.call {s : State σ Lock χ ε α} (hs : Reachable S ok init s) (hq : s.Quiet)
    {c : χ} {out : Except ε α} {t : σ} (h : Runs (S.body c) s.db out t)
    (hok : ∀ a, out = .ok a → ok c a s.db) :
    Reachable S ok init ⟨t,fun _ => none,(c,out) :: s.log⟩ := by
  have hend := Eval.finish h (hq.lockless 0) hok (hs.step (.start c (hq 0)))
  rw [State.drop_of_none (hq 0)] at hend
  have hnone : s.running = fun _ => none := funext hq
  rw [hnone] at hend
  exact hend

section Along
variable {P : State σ Lock χ ε α → State σ Lock χ ε α → Prop} {s : State σ Lock χ ε α} {t : ℕ} {c : χ} {a : α} {db : σ}

theorem Along.step {s' : State σ Lock χ ε α} (hs : Along S P init s) (hstep : Step S (fun _ _ _ => True) s s')
    (hp : P s s') :
    Along S P init s' := by
  obtain ⟨db,hdb,hfrom⟩ := hs
  exact ⟨db,hdb,hfrom.step hstep hp⟩

/-- A call that answers while the others wait, up to its last step, where steps that leave the database are allowed. -/
theorem Along.start (hs : Along S P init s) (hP : ∀ s s', s'.db = s.db → P s s') (ht : s.running t = none)
    (h : Runs (S.body c) s.db (.ok a) db) (hfree : s.Lockless t) : ∃ s₁, Along S P init s₁ ∧ s₁.db = s.db ∧
      s₁.log = s.log ∧ Step S (fun _ _ _ => True) s₁ ⟨db,s.running,(c,.ok a) :: s.log⟩ := by
  have hsame (s s' : State σ Lock χ ε α) (hs : Along S P init s) (hstep : Step S (fun _ _ _ => True) s s')
      (hdb : s'.db = s.db) : Along S P init s' := hs.step hstep (hP s s' hdb)
  have hlast := Eval.lastStep hsame h hfree (fun _ _ => trivial) (hsame _ _ hs (.start c ht) rfl)
  rw [State.drop_of_none ht] at hlast
  exact hlast

/-- To its end, where its last step is allowed too. -/
theorem Along.call (hs : Along S P init s) (hP : ∀ s s', s'.db = s.db → P s s') (ht : s.running t = none)
    (h : Runs (S.body c) s.db (.ok a) db) (hfree : s.Lockless t)
    (hlast : ∀ s₁, s₁.db = s.db → P s₁ ⟨db,s.running,(c,.ok a) :: s.log⟩) :
    Along S P init ⟨db,s.running,(c,.ok a) :: s.log⟩ := by
  obtain ⟨s₁,hs₁,hdb,_,hstep⟩ := hs.start hP ht h hfree
  exact hs₁.step hstep (hlast s₁ hdb)

end Along
end ReadCommitted
