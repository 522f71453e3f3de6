import Tag2now.Transactions.System

/-! # Rely and guarantee for locked transactions

A discipline says what a transaction may count on while it holds its locks
(`Rely`), what a call that answered did to the committed database at the moment
of its commit (`Commit`), and what holds when it raised (`Fail`). `Safe` is the
weakest condition under which a program keeps to the discipline whatever the
other transactions commit between its statements. If every call is safe, the
interleaved system refines the system of atomic calls: its committed databases
and its log are those of a run in which each call happens in one step.
-/
namespace ReadCommitted
variable {σ Lock χ ε α β : Type}

/-- What a transaction is told, and what it promises. -/
structure Agreement (σ Lock χ ε α : Type) where
  Inv : σ → Prop
  Rely : Set Lock → σ → σ → Prop
  Commit : χ → α → Set Lock → σ → σ → Prop
  Fail : χ → ε → σ → Prop
  rely_refl : ∀ L s, Rely L s s
  rely_trans : ∀ {L s t u}, Rely L s t → Rely L t u → Rely L s u
  rely_mono : ∀ {K L s t}, K ⊆ L → Rely L s t → Rely K s t

/-- The promises of the transactions are what the others are told. -/
structure Discipline (σ Lock χ ε α : Type) extends Agreement σ Lock χ ε α where
  inv_commit : ∀ {c a L s t}, Inv s → Commit c a L s t → Inv t
  rely_commit : ∀ {c a K L s t}, Inv s → Commit c a L s t → Disjoint K L → Rely K s t

variable (D : Agreement σ Lock χ ε α)

/-- The program keeps to the agreement from here on, whatever the others commit. -/
def Safe (c : χ) : Prog σ Lock ε α → Held σ Lock → σ → Prop
  | .ret a, h, s => ∀ s', D.Rely h.locks s s' → D.Inv s' → h.due s' →
      D.Commit c a h.locks s' (h.pending s')
  | .raise e, h, s => ∀ s', D.Rely h.locks s s' → D.Inv s' → D.Fail c e s'
  | .stmt st k, h, s => ∀ s', D.Rely h.locks s s' → D.Inv s' → ∀ o, st (h.pending s') o →
      Safe c (k o.result) (h.after o) s'
  | .savepoint f k, h, s => (∀ e, Safe c (f e) h s) ∧ Safe c k h s
  | .release k, h, s => Safe c k h s
  | .deadline d k, h, s => Safe c k (h.within d) s

variable {D}

/-- What other transactions commit keeps a safe program safe. -/
theorem Safe.rely {c : χ} {p : Prog σ Lock ε α} {h : Held σ Lock} {s s' : σ}
    (hp : Safe D c p h s) (hr : D.Rely h.locks s s') : Safe D c p h s' := by
  induction p generalizing h with
  | ret a => exact fun t ht => hp t (D.rely_trans hr ht)
  | raise e => exact fun t ht => hp t (D.rely_trans hr ht)
  | stmt st k ih => exact fun t ht => hp t (D.rely_trans hr ht)
  | savepoint f k ihf ihk => exact ⟨fun e => ihf e (hp.1 e) hr,ihk hp.2 hr⟩
  | release k ih => exact ih hp hr
  | deadline d k ih => exact ih hp hr

section Rules
variable {c : χ} {h : Held σ Lock} {s : σ} (k : β → Prog σ Lock ε α)

theorem safe_query (f : σ → β) : Safe D c (Prog.query f >>= k) h s ↔
    ∀ s', D.Rely h.locks s s' → D.Inv s' → Safe D c (k (f (h.pending s'))) h s' := by
  simp only [Prog.query,Prog.perform,Prog.stmt_bind,Prog.ret_bind,Safe,forall_eq,Held.after_read]

theorem safe_choose (p : σ → β → Prop) : Safe D c (Prog.choose p >>= k) h s ↔
    ∀ s', D.Rely h.locks s s' → D.Inv s' → ∀ b, p (h.pending s') b → Safe D c (k b) h s' := by
  simp only [Prog.choose,Prog.perform,Prog.stmt_bind,Prog.ret_bind,Safe]
  constructor
  · intro hs s' hr hi b hb
    simpa using hs s' hr hi _ ⟨b,hb,rfl⟩
  · rintro hs s' hr hi _ ⟨b,hb,rfl⟩
    simpa using hs s' hr hi b hb

theorem safe_execute (f : σ → β) (locks : σ → Set Lock) (write : σ → σ → σ) :
    Safe D c (Prog.execute f locks write >>= k) h s ↔ ∀ s', D.Rely h.locks s s' → D.Inv s' →
      Safe D c (k (f (h.pending s')))
        ⟨write (h.pending s') ∘ h.pending,h.locks ∪ locks (h.pending s'),h.due⟩ s' := by
  simp only [Prog.execute,Prog.perform,Prog.stmt_bind,Prog.ret_bind,Safe,forall_eq,Held.after]

theorem safe_perform (st : Stmt σ Lock β) : Safe D c (Prog.perform st >>= k) h s ↔
    ∀ s', D.Rely h.locks s s' → D.Inv s' → ∀ o, st (h.pending s') o →
      Safe D c (k o.result) (h.after o) s' := by
  simp only [Prog.perform,Prog.stmt_bind,Prog.ret_bind,Safe]

theorem safe_deadline {d : σ → Prop} {p : Prog σ Lock ε α} : Safe D c (.deadline d p) h s ↔ Safe D c p (h.within d) s :=
  Iff.rfl

/-- The call may fail in any way. -/
def Agreement.Lenient (D : Agreement σ Lock χ ε α) (c : χ) : Prop := ∀ e s, D.Fail c e s

theorem safe_ofExcept (hD : D.Lenient c) {k : β → Prog σ Lock ε α} {x : Except ε β}
    (hk : ∀ b, x = .ok b → Safe D c (k b) h s) : Safe D c (Prog.ofExcept x >>= k) h s := by
  cases x with
  | error e => exact fun _ _ _ => hD e _
  | ok b => exact hk b rfl

theorem safe_ensure (hD : D.Lenient c) {k : Unit → Prog σ Lock ε α} {p : Prop} [Decidable p] {e : ε}
    (hk : p → Safe D c (k ()) h s) : Safe D c (Prog.ensure p e >>= k) h s := by
  unfold Prog.ensure
  split
  · exact hk (by assumption)
  · exact fun _ _ _ => hD e _

theorem safe_nested (body : Prog σ Lock ε α) (f : ε → Prog σ Lock ε α) :
    Safe D c (Prog.nested body f) h s ↔
      (∀ e, Safe D c (f e) h s) ∧ Safe D c (body >>= fun a => .release (.ret a)) h s := Iff.rfl

end Rules

/-! ## Programs judged by their writes alone -/

/-- Every statement takes locks and adds a write that `P` relates. -/
def Writes (P : Set Lock → (σ → σ) → Prop) : Prog σ Lock ε α → Prop
  | .ret _ => True
  | .raise _ => True
  | .stmt st k => (∀ v o, st v o → P o.locks o.write) ∧ ∀ b, Writes P (k b)
  | .savepoint f k => (∀ e, Writes P (f e)) ∧ Writes P k
  | .release k => Writes P k
  | .deadline _ k => Writes P k

section Writes
variable {P : Set Lock → (σ → σ) → Prop} {k : β → Prog σ Lock ε α}

theorem writes_bind {p : Prog σ Lock ε β} (hp : Writes P p) (hk : ∀ b, Writes P (k b)) :
    Writes P (p >>= k) := by
  induction p with
  | ret a => exact hk a
  | raise e => trivial
  | stmt st j ih => exact ⟨hp.1,fun b => ih b (hp.2 b)⟩
  | savepoint f j ihf ihj => exact ⟨fun e => ihf e (hp.1 e),ihj hp.2⟩
  | release j ih => exact ih hp
  | deadline d j ih => exact ih hp

theorem writes_perform {st : Stmt σ Lock β} (h : ∀ v o, st v o → P o.locks o.write) :
    Writes P (Prog.perform st : Prog σ Lock ε β) := ⟨h,fun _ => trivial⟩

theorem writes_query (hP : P ∅ id) (f : σ → β) : Writes P (Prog.query f : Prog σ Lock ε β) :=
  writes_perform (by rintro v _ rfl; exact hP)

theorem writes_choose (hP : P ∅ id) (p : σ → β → Prop) : Writes P (Prog.choose p : Prog σ Lock ε β) :=
  writes_perform (by rintro v _ ⟨b,_,rfl⟩; exact hP)

theorem writes_execute {f : σ → β} {locks : σ → Set Lock} {write : σ → σ → σ}
    (h : ∀ v, P (locks v) (write v)) : Writes P (Prog.execute f locks write : Prog σ Lock ε β) :=
  writes_perform (by rintro v _ rfl; exact h v)

theorem writes_ofExcept (x : Except ε β) : Writes P (Prog.ofExcept x : Prog σ Lock ε β) := by
  cases x <;> trivial

theorem writes_ensure (p : Prop) [Decidable p] (e : ε) : Writes P (Prog.ensure p e : Prog σ Lock ε Unit) := by
  unfold Prog.ensure
  split <;> trivial

/-- Where the writes compose and a composite may be committed while `J` holds, which the locks held keep, the
program is safe. -/
theorem Writes.safe_while {c : χ} {p : Prog σ Lock ε α} (hp : Writes P p) (hD : D.Lenient c)
    (hcomp : ∀ {K L f g}, P K f → P L g → P (K ∪ L) (g ∘ f)) {K : Set Lock} {J : σ → Prop}
    (hkeeps : ∀ {s t}, D.Rely K s t → J s → J t)
    (hcommit : ∀ a L f s, K ⊆ L → P L f → D.Inv s → J s → D.Commit c a L s (f s)) {h : Held σ Lock}
    (hlocks : K ⊆ h.locks) (hh : P h.locks h.pending) {s : σ} (hs : J s) : Safe D c p h s := by
  have hstays {h : Held σ Lock} (hlocks : K ⊆ h.locks) {s s' : σ} (hr : D.Rely h.locks s s') (hs : J s) : J s' :=
    hkeeps (D.rely_mono hlocks hr) hs
  induction p generalizing h s with
  | ret a => exact fun s' hr hi _ => hcommit a _ _ s' hlocks hh hi (hstays hlocks hr hs)
  | raise e => exact fun s' _ _ => hD e s'
  | stmt st k ih =>
    intro s' hr _ o ho
    have hmore : K ⊆ (h.after o).locks := hlocks.trans Set.subset_union_left
    have hmoved : P (h.after o).locks (h.after o).pending := @hcomp _ _ h.pending o.write hh (hp.1 _ o ho)
    exact ih _ (hp.2 _) hmore hmoved (hstays hlocks hr hs)
  | savepoint f k ihf ihk => exact ⟨fun e => ihf e (hp.1 e) hlocks hh hs,ihk hp.2 hlocks hh hs⟩
  | release k ih => exact ih hp hlocks hh hs
  | deadline d k ih => exact ih (h := h.within d) hp hlocks hh hs

/-- Where a composite may always be committed. -/
theorem Writes.safe {c : χ} {p : Prog σ Lock ε α} (hp : Writes P p) (hD : D.Lenient c)
    (hcomp : ∀ {K L f g}, P K f → P L g → P (K ∪ L) (g ∘ f))
    (hcommit : ∀ a L f s, P L f → D.Inv s → D.Commit c a L s (f s)) {h : Held σ Lock}
    (hh : P h.locks h.pending) (s : σ) : Safe D c p h s :=
  hp.safe_while hD hcomp (K := ∅) (J := fun _ => True) (fun _ _ => trivial)
    (fun a L f s _ hf hi _ => hcommit a L f s hf hi) (Set.empty_subset _) hh trivial

end Writes

variable {D : Discipline σ Lock χ ε α} (S : System σ Lock χ ε α) (ok : χ → α → σ → Prop)

/-- The calls of a system keep to the discipline, and so does its environment. -/
structure Discipline.Sound (D : Discipline σ Lock χ ε α) (init : σ → Prop) : Prop where
  init : ∀ {s}, init s → D.Inv s
  env : ∀ {s t}, D.Inv s → S.env s t → D.Inv t ∧ ∀ L, D.Rely L s t
  body : ∀ c s, Safe D.toAgreement c (S.body c) .empty s

/-- Runs in which every call happens in one step: the abstract system. -/
inductive Atomic (D : Discipline σ Lock χ ε α) (init : σ → Prop) :
    σ → List (χ × Except ε α) → Prop
  | init {s : σ} : init s → Atomic D init s []
  | env {s t : σ} {log} : Atomic D init s log → D.Inv s → S.env s t → Atomic D init t log
  | commit {s t : σ} {log} {c : χ} {a : α} {L : Set Lock} : Atomic D init s log → D.Inv s →
      ok c a s → D.Commit c a L s t → Atomic D init t ((c,.ok a) :: log)
  | raise {s : σ} {log} {c : χ} {e : ε} : Atomic D init s log → D.Inv s → D.Fail c e s →
      Atomic D init s ((c,.error e) :: log)

/-- Every open transaction is safe as its call agreed, and so is what its savepoint would fall back to. -/
def AllSafe (A : ℕ → χ → Agreement σ Lock χ ε α) (s : State σ Lock χ ε α) : Prop :=
  ∀ t c r, s.running t = some (c,r) → Safe (A t c) c r.prog r.held s.db ∧
    ∀ f v, r.saved = some (f,v) → ∀ e, Safe (A t c) c (f e) v s.db

section AllSafe
variable {S ok} {A : ℕ → χ → Agreement σ Lock χ ε α} {s s' : State σ Lock χ ε α}

theorem AllSafe.put (hs : AllSafe A s) {t : ℕ} {c : χ} {r : Running σ Lock ε α}
    (hp : Safe (A t c) c r.prog r.held s.db)
    (hv : ∀ f v, r.saved = some (f,v) → ∀ e, Safe (A t c) c (f e) v s.db) : AllSafe A (s.put t c r) := by
  intro u cu ru hu
  rw [State.put_running] at hu
  split at hu
  · rename_i heq
    subst heq
    cases hu
    exact ⟨hp,hv⟩
  · exact hs u cu ru hu

theorem AllSafe.drop (hs : AllSafe A s) (t : ℕ) : AllSafe A (s.drop t) := by
  intro u cu ru hu
  rw [State.drop_running] at hu
  split at hu
  · cases hu
  · exact hs u cu ru hu

/-- A change of the committed database that each open transaction can count on, or has not begun to see. -/
theorem AllSafe.change (hs : AllSafe A s) (he : s.Exclusive)
    (hbody : ∀ t c db, Safe (A t c) c (S.body c) .empty db)
    (hopen : ∀ t c r, s'.running t = some (c,r) → s.running t = some (c,r) ∧
      ((A t c).Rely r.held.locks s.db s'.db ∨ r = ⟨S.body c,.empty,none⟩)) : AllSafe A s' := by
  intro t c r ht
  obtain ⟨ht,hrely | rfl⟩ := hopen t c r ht
  · obtain ⟨hp,hv⟩ := hs t c r ht
    exact ⟨hp.rely hrely,fun f v hf e => (hv f v hf e).rely ((A t c).rely_mono (he.saved ht hf) hrely)⟩
  · exact ⟨hbody t c s'.db,nofun⟩

/-- A step keeps every open transaction safe when those that have begun can count on its change. -/
theorem AllSafe.step (hs : AllSafe A s) (he : s.Exclusive) (hinv : ∀ t c, (A t c).Inv s.db)
    (hbody : ∀ t c db, Safe (A t c) c (S.body c) .empty db) (hstep : Step S ok s s')
    (hopen : ∀ t c r, s.running t = some (c,r) → s'.running t = some (c,r) →
      (A t c).Rely r.held.locks s.db s'.db ∨ r = ⟨S.body c,.empty,none⟩) : AllSafe A s' := by
  cases hstep with
  | env _ => exact hs.change he hbody fun t c r ht => ⟨ht,hopen t c r ht ht⟩
  | start c ht => exact hs.put (hbody _ c _) nofun
  | @stmt t c r β st k o ht hp ho _ =>
    obtain ⟨hprog,hsaved⟩ := hs t c r ht
    rw [hp] at hprog
    exact hs.put (hprog _ ((A t c).rely_refl _ _) (hinv t c) o ho) hsaved
  | @savepoint t c r f k ht hp =>
    obtain ⟨hprog,_⟩ := hs t c r ht
    rw [hp] at hprog
    refine hs.put hprog.2 ?_
    intro f' v hf
    cases hf
    exact hprog.1
  | @release t c r k ht hp =>
    obtain ⟨hprog,_⟩ := hs t c r ht
    rw [hp] at hprog
    exact hs.put hprog nofun
  | @deadline t c r d k ht hp =>
    obtain ⟨hprog,hsaved⟩ := hs t c r ht
    rw [hp] at hprog
    exact hs.put hprog hsaved
  | @fail t c r f v e ht hv => exact hs.put ((hs t c r ht).2 f v hv e) nofun
  | crash ht => exact hs.drop _
  | @raise t c r e ht hp _ => exact hs.drop t
  | @commit t c r a ht hp hdue hok =>
    refine hs.change he hbody fun u cu ru hu => ?_
    have hkept : s.running u = some (cu,ru) := by
      rw [State.drop_running] at hu
      split at hu
      · cases hu
      · exact hu
    exact ⟨hkept,hopen u cu ru hkept hu⟩

theorem AllSafe.commits (hs : AllSafe A s) (hinv : ∀ t c, (A t c).Inv s.db) {t : ℕ} {c : χ} {r : Running σ Lock ε α}
    {a : α} (ht : s.running t = some (c,r)) (hp : r.prog = .ret a) (hdue : r.held.due s.db) :
    (A t c).Commit c a r.held.locks s.db (r.held.pending s.db) := by
  have hprog := (hs t c r ht).1
  rw [hp] at hprog
  exact hprog _ ((A t c).rely_refl _ _) (hinv t c) hdue

theorem AllSafe.raises (hs : AllSafe A s) (hinv : ∀ t c, (A t c).Inv s.db) {t : ℕ} {c : χ} {r : Running σ Lock ε α}
    {e : ε} (ht : s.running t = some (c,r)) (hp : r.prog = .raise e) : (A t c).Fail c e s.db := by
  have hprog := (hs t c r ht).1
  rw [hp] at hprog
  exact hprog _ ((A t c).rely_refl _ _) (hinv t c)

end AllSafe

variable {S ok}

theorem AllSafe.relies {s s' : State σ Lock χ ε α} (hs : AllSafe (fun _ _ => D.toAgreement) s) (he : s.Exclusive)
    (hinv : D.Inv s.db) (henv : ∀ {t}, S.env s.db t → ∀ L, D.Rely L s.db t) (hstep : Step S ok s s') {u : ℕ} {c : χ}
    {r : Running σ Lock ε α} (hu : s.running u = some (c,r)) (hu' : s'.running u = some (c,r)) :
    D.Rely r.held.locks s.db s'.db := by
  cases hstep with
  | env h => exact henv h _
  | @commit t c' r' a ht hp hdue hok =>
    have hcommit := hs.commits (fun _ _ => hinv) ht hp hdue
    have hne : u ≠ t := by
      rintro rfl
      rw [State.drop_running,if_pos rfl] at hu'
      cases hu'
    exact D.rely_commit hinv hcommit (he.disjoint hne hu ht)
  | _ => exact D.rely_refl _ _

/-- Refinement: what the interleaved system commits and answers, a run of atomic
calls commits and answers too, and every open transaction stays safe. -/
theorem Reachable.refines {init : σ → Prop} (hD : D.Sound S init) {s : State σ Lock χ ε α}
    (h : Reachable S ok init s) : Atomic S ok D init s.db s.log ∧ D.Inv s.db ∧
      AllSafe (fun _ _ => D.toAgreement) s := by
  induction h with
  | init h => exact ⟨.init h,hD.init h,nofun⟩
  | @step s s' hreach hstep ih =>
    obtain ⟨hatom,hinv,hsafe⟩ := ih
    have hex := hreach.exclusive
    have hstays := hsafe.step hex (fun _ _ => hinv) (fun _ => hD.body) hstep fun t c r ht ht' =>
      .inl (hsafe.relies hex hinv (fun h => (hD.env hinv h).2) hstep ht ht')
    cases hstep with
    | env he => exact ⟨.env hatom hinv he,(hD.env hinv he).1,hstays⟩
    | @raise t c r e ht hp _ => exact ⟨.raise hatom hinv (hsafe.raises (fun _ _ => hinv) ht hp),hinv,hstays⟩
    | @commit t c r a ht hp hdue hok =>
      have hcommit := hsafe.commits (fun _ _ => hinv) ht hp hdue
      exact ⟨.commit hatom hinv hok hcommit,D.inv_commit hinv hcommit,hstays⟩
    | _ => exact ⟨hatom,hinv,hstays⟩

theorem Reachable.relies {init : σ → Prop} (hD : D.Sound S init) {s s' : State σ Lock χ ε α}
    (h : Reachable S ok init s) (hstep : Step S ok s s') {t : ℕ} {c : χ} {r : Running σ Lock ε α}
    (ht : s.running t = some (c,r)) (ht' : s'.running t = some (c,r)) : D.Rely r.held.locks s.db s'.db := by
  obtain ⟨_,hinv,hsafe⟩ := h.refines hD
  exact hsafe.relies h.exclusive hinv (fun h => (hD.env hinv h).2) hstep ht ht'

theorem Reachable.commits {init : σ → Prop} (hD : D.Sound S init) {s : State σ Lock χ ε α}
    (h : Reachable S ok init s) {t : ℕ} {c : χ} {r : Running σ Lock ε α} {a : α}
    (ht : s.running t = some (c,r)) (hp : r.prog = .ret a) (hdue : r.held.due s.db) :
    D.Commit c a r.held.locks s.db (r.held.pending s.db) := by
  obtain ⟨_,hinv,hsafe⟩ := h.refines hD
  exact hsafe.commits (fun _ _ => hinv) ht hp hdue

theorem Reachable.raises {init : σ → Prop} (hD : D.Sound S init) {s : State σ Lock χ ε α}
    (h : Reachable S ok init s) {t : ℕ} {c : χ} {r : Running σ Lock ε α} {e : ε}
    (ht : s.running t = some (c,r)) (hp : r.prog = .raise e) : D.Fail c e s.db := by
  obtain ⟨_,hinv,hsafe⟩ := h.refines hD
  exact hsafe.raises (fun _ _ => hinv) ht hp

/-! ## Runs with a condition on their steps -/

/-- What follows `s₀` by steps that satisfy `P`. -/
inductive From (S : System σ Lock χ ε α) (P : State σ Lock χ ε α → State σ Lock χ ε α → Prop)
    (s₀ : State σ Lock χ ε α) : State σ Lock χ ε α → Prop
  | here : From S P s₀ s₀
  | step {s s' : State σ Lock χ ε α} : From S P s₀ s → Step S (fun _ _ _ => True) s s' → P s s' → From S P s₀ s'

/-- The states of the runs whose steps all satisfy `P`. -/
def Along (S : System σ Lock χ ε α) (P : State σ Lock χ ε α → State σ Lock χ ε α → Prop) (init : σ → Prop)
    (s : State σ Lock χ ε α) : Prop := ∃ db, init db ∧ From S P ⟨db,fun _ => none,[]⟩ s

section From
variable {P : State σ Lock χ ε α → State σ Lock χ ε α → Prop} {init : σ → Prop} {s₀ s : State σ Lock χ ε α}

theorem From.reachable (h : From S P s₀ s) (hs₀ : Reachable S (fun _ _ _ => True) init s₀) :
    Reachable S (fun _ _ _ => True) init s := by
  induction h with
  | here => exact hs₀
  | step _ hstep _ ih => exact ih.step hstep

theorem Along.reachable (h : Along S P init s) : Reachable S (fun _ _ _ => True) init s := by
  obtain ⟨db,hdb,hfrom⟩ := h
  exact hfrom.reachable (.init hdb)

/-- Where every step leaves what the open calls have agreed on, they stay safe. -/
theorem From.allSafe {A : ℕ → χ → Agreement σ Lock χ ε α} (h : From S P s₀ s)
    (hs₀ : Reachable S (fun _ _ _ => True) init s₀) (hsafe : AllSafe A s₀)
    (hinv : ∀ s, From S P s₀ s → ∀ t c, (A t c).Inv s.db)
    (hbody : ∀ t c db, Safe (A t c) c (S.body c) .empty db)
    (hopen : ∀ s s', From S P s₀ s → Step S (fun _ _ _ => True) s s' → P s s' → ∀ t c r, s.running t = some (c,r) →
      s'.running t = some (c,r) → (A t c).Rely r.held.locks s.db s'.db ∨ r = ⟨S.body c,.empty,none⟩) :
    AllSafe A s := by
  induction h with
  | here => exact hsafe
  | @step s s' hfrom hstep hp ih =>
    exact ih.step (hfrom.reachable hs₀).exclusive (hinv s hfrom) hbody hstep (hopen s s' hfrom hstep hp)

end From

/-- Whoever has nothing to say agrees with anything. -/
def Agreement.anything : Agreement σ Lock χ ε α where
  Inv _ := True
  Rely _ _ _ := True
  Commit _ _ _ _ _ := True
  Fail _ _ _ := True
  rely_refl _ _ := trivial
  rely_trans _ _ := trivial
  rely_mono _ _ := trivial

theorem safe_anything (c : χ) (p : Prog σ Lock ε α) (h : Held σ Lock) (s : σ) : Safe .anything c p h s := by
  induction p generalizing h s with
  | ret a => exact fun _ _ _ _ => trivial
  | raise e => exact fun _ _ _ => trivial
  | stmt st k ih => exact fun s' _ _ o _ => ih o.result _ s'
  | savepoint f k ihf ihk => exact ⟨fun e => ihf e h s,ihk h s⟩
  | release k ih => exact ih h s
  | deadline d k ih => exact ih _ s

end ReadCommitted
