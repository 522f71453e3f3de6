import Mathlib.Data.Set.Image
import Tag2now.Transactions.RelyGuarantee
import Tag2now.Transactions.Alone

/-! # Further calls beside a system

A system is given a second part of the database, with locks and calls of their own that read
both parts and write to the second alone. What the larger system does is, seen from the first
part, a run of the system as it was; the further calls are steps that leave it.
-/
namespace ReadCommitted
variable {σ Lock χ ε α β : Type} {δ M χ' α' : Type}

def firstPart : Part σ (σ × δ) Lock (Lock ⊕ M) := ⟨Prod.fst,fun f => Prod.map f id,.inl⟩

def Prog.lift (p : Prog σ Lock ε α) : Prog (σ × δ) (Lock ⊕ M) ε (α ⊕ α') := p.on firstPart .inl

def Held.lift (h : Held σ Lock) : Held (σ × δ) (Lock ⊕ M) :=
  ⟨Prod.map h.pending id,Sum.inl '' h.locks,fun s => h.due s.1⟩

def Running.lift (r : Running σ Lock ε α) : Running (σ × δ) (Lock ⊕ M) ε (α ⊕ α') where
  prog := r.prog.lift
  held := r.held.lift
  saved := r.saved.map fun fv => (fun e => (fv.1 e).lift,fv.2.lift)

section Lift
variable {p : Prog σ Lock ε α}

theorem lift_eq_ret {a : α ⊕ α'} (h : (p.lift : Prog (σ × δ) (Lock ⊕ M) ε (α ⊕ α')) = .ret a) :
    ∃ a₀, p = .ret a₀ ∧ a = .inl a₀ := by
  cases p with
  | ret a₀ => exact ⟨a₀,rfl,(Prog.ret.inj h).symm⟩
  | _ => cases h

theorem lift_eq_raise {e : ε} (h : (p.lift : Prog (σ × δ) (Lock ⊕ M) ε (α ⊕ α')) = .raise e) : p = .raise e := by
  cases p with
  | raise e₀ => exact congrArg Prog.raise (Prog.raise.inj h)
  | _ => cases h

theorem lift_eq_stmt {st : Stmt (σ × δ) (Lock ⊕ M) β} {k}
    (h : (p.lift : Prog (σ × δ) (Lock ⊕ M) ε (α ⊕ α')) = .stmt st k) :
    ∃ st₀ k₀, p = .stmt st₀ k₀ ∧ st = firstPart.stmt st₀ ∧ k = fun b => (k₀ b).lift := by
  cases p with
  | stmt st₀ k₀ =>
    cases h
    exact ⟨st₀,k₀,rfl,rfl,rfl⟩
  | _ => cases h

theorem lift_eq_savepoint {f k} (h : (p.lift : Prog (σ × δ) (Lock ⊕ M) ε (α ⊕ α')) = .savepoint f k) :
    ∃ f₀ k₀, p = .savepoint f₀ k₀ ∧ f = (fun e => (f₀ e).lift) ∧ k = k₀.lift := by
  cases p with
  | savepoint f₀ k₀ =>
    cases h
    exact ⟨f₀,k₀,rfl,rfl,rfl⟩
  | _ => cases h

theorem lift_eq_release {k} (h : (p.lift : Prog (σ × δ) (Lock ⊕ M) ε (α ⊕ α')) = .release k) :
    ∃ k₀, p = .release k₀ ∧ k = k₀.lift := by
  cases p with
  | release k₀ => exact ⟨k₀,rfl,(Prog.release.inj h).symm⟩
  | _ => cases h

theorem lift_eq_deadline {d k} (h : (p.lift : Prog (σ × δ) (Lock ⊕ M) ε (α ⊕ α')) = .deadline d k) :
    ∃ d₀ k₀, p = .deadline d₀ k₀ ∧ d = (fun s => d₀ s.1) ∧ k = k₀.lift := by
  cases p with
  | deadline d₀ k₀ =>
    cases h
    exact ⟨d₀,k₀,rfl,rfl,rfl⟩
  | _ => cases h

end Lift

namespace Held

theorem lift_empty : (empty : Held σ Lock).lift = (empty : Held (σ × δ) (Lock ⊕ M)) := by
  simp [lift,empty]

theorem lift_after (h : Held σ Lock) (o : Outcome σ Lock β) :
    (h.after o).lift = (h.lift : Held (σ × δ) (Lock ⊕ M)).after
      ⟨o.result,Sum.inl '' o.locks,Prod.map o.write id⟩ := by
  simp only [lift,after,Set.image_union,Prod.map_comp_map,Function.id_comp]

end Held

/-- The further calls, beside those of the system. -/
def System.beside (S : System σ Lock χ ε α) (body : χ' → Prog (σ × δ) (Lock ⊕ M) ε α') :
    System (σ × δ) (Lock ⊕ M) (χ ⊕ χ') ε (α ⊕ α') where
  body
    | .inl c => (S.body c).lift
    | .inr c => body c >>= fun a => .ret (.inr a)
  env s t := S.env s.1 t.1 ∧ t.2 = s.2

/-- A write that leaves the first part. -/
def Aside (_ : Set (Lock ⊕ M)) (f : σ × δ → σ × δ) : Prop := ∀ s, (f s).1 = s.1

theorem aside_id (L : Set (Lock ⊕ M)) : Aside L (id : σ × δ → σ × δ) := fun _ => rfl

/-- What is running in one place, and what of it the system as it was runs there. -/
inductive Shadow : Option ((χ ⊕ χ') × Running (σ × δ) (Lock ⊕ M) ε (α ⊕ α')) →
    Option (χ × Running σ Lock ε α) → Prop
  | idle : Shadow none none
  | call (c : χ) (r : Running σ Lock ε α) : Shadow (some (.inl c,r.lift)) (some (c,r))
  | other (c : χ') {r : Running (σ × δ) (Lock ⊕ M) ε (α ⊕ α')} : Writes Aside r.prog →
      Aside r.held.locks r.held.pending →
      (∀ f v, r.saved = some (f,v) → Aside v.locks v.pending ∧ ∀ e, Writes Aside (f e)) →
      Shadow (some (.inr c,r)) none

/-- The calls of the system as it was, with their answers. -/
def ownCall : (χ ⊕ χ') × Except ε (α ⊕ α') → Option (χ × Except ε α)
  | (.inl c,.ok (.inl a)) => some (c,.ok a)
  | (.inl c,.error e) => some (c,.error e)
  | _ => none

/-- A call of the system as it was answers as it did. -/
def OwnAnswer : (χ ⊕ χ') × Except ε (α ⊕ α') → Prop
  | (.inl _,.ok (.inr _)) => False
  | _ => True

/-- The larger system's state, seen from the first part. -/
structure Mirrors (s : State (σ × δ) (Lock ⊕ M) (χ ⊕ χ') ε (α ⊕ α')) (s₀ : State σ Lock χ ε α) : Prop where
  db : s₀.db = s.db.1
  running : ∀ t, Shadow (s.running t) (s₀.running t)
  log : s₀.log = s.log.filterMap ownCall
  answers : ∀ e ∈ s.log, OwnAnswer e

section Mirrors
variable {s s' : State (σ × δ) (Lock ⊕ M) (χ ⊕ χ') ε (α ⊕ α')} {s₀ : State σ Lock χ ε α}

theorem Mirrors.called (h : Mirrors s s₀) {t : ℕ} {c : χ} {r : Running (σ × δ) (Lock ⊕ M) ε (α ⊕ α')}
    (ht : s.running t = some (.inl c,r)) : ∃ r₀, r = r₀.lift ∧ s₀.running t = some (c,r₀) := by
  have hslot := h.running t
  rw [ht] at hslot
  generalize s₀.running t = slot at hslot
  cases hslot with
  | call c r => exact ⟨r,rfl,rfl⟩

theorem Mirrors.aside (h : Mirrors s s₀) {t : ℕ} {c : χ'} {r : Running (σ × δ) (Lock ⊕ M) ε (α ⊕ α')}
    (ht : s.running t = some (.inr c,r)) : s₀.running t = none ∧ Writes Aside r.prog ∧
      Aside r.held.locks r.held.pending ∧
      ∀ f v, r.saved = some (f,v) → Aside v.locks v.pending ∧ ∀ e, Writes Aside (f e) := by
  have hslot := h.running t
  rw [ht] at hslot
  generalize s₀.running t = slot at hslot
  cases hslot with
  | other c hp hh hv => exact ⟨rfl,hp,hh,hv⟩

theorem Mirrors.idle (h : Mirrors s s₀) {t : ℕ} (ht : s.running t = none) : s₀.running t = none := by
  have hslot := h.running t
  rw [ht] at hslot
  generalize s₀.running t = slot at hslot
  cases hslot with
  | idle => rfl

theorem Mirrors.free (h : Mirrors s s₀) {t : ℕ} {L : Set Lock} (hfree : s.Free t (Sum.inl '' L)) : s₀.Free t L := by
  intro u c r hne hu
  have hslot := h.running u
  rw [hu] at hslot
  generalize hsu : s.running u = slot at hslot
  cases hslot with
  | call c r =>
    have hdisj := hfree u _ _ hne hsu
    exact (Set.disjoint_image_iff Sum.inl_injective).mp hdisj

theorem Mirrors.put (h : Mirrors s s₀) (t : ℕ) (c : χ) (r : Running σ Lock ε α) :
    Mirrors (s.put t (.inl c) r.lift) (s₀.put t c r) := by
  refine ⟨h.db,fun u => ?_,h.log,h.answers⟩
  rw [State.put_running,State.put_running]
  split
  · exact .call c r
  · exact h.running u

theorem Mirrors.put_aside (h : Mirrors s s₀) {t : ℕ} {c : χ'} {r : Running (σ × δ) (Lock ⊕ M) ε (α ⊕ α')}
    (ht : s₀.running t = none) (hp : Writes Aside r.prog) (hh : Aside r.held.locks r.held.pending)
    (hv : ∀ f v, r.saved = some (f,v) → Aside v.locks v.pending ∧ ∀ e, Writes Aside (f e)) :
    Mirrors (s.put t (.inr c) r) s₀ := by
  refine ⟨h.db,fun u => ?_,h.log,h.answers⟩
  rw [State.put_running]
  split
  · rename_i hu
    rw [hu,ht]
    exact .other c hp hh hv
  · exact h.running u

theorem Mirrors.drop (h : Mirrors s s₀) (t : ℕ) (u : ℕ) : Shadow ((s.drop t).running u) ((s₀.drop t).running u) := by
  rw [State.drop_running,State.drop_running]
  split
  · exact .idle
  · exact h.running u

/-- A call of the system as it was ends in both with its answer. -/
theorem Mirrors.answered (h : Mirrors s s₀) (t : ℕ) (c : χ) (out : Except ε α)
    {db : σ × δ} {db₀ : σ} (hdb : db₀ = db.1) :
    Mirrors ⟨db,(s.drop t).running,(.inl c,out.map .inl) :: s.log⟩
      ⟨db₀,(s₀.drop t).running,(c,out) :: s₀.log⟩ := by
  have hcall : ownCall ((.inl c : χ ⊕ χ'),(out.map .inl : Except ε (α ⊕ α'))) = some (c,out) := by cases out <;> rfl
  have hanswer : OwnAnswer ((.inl c : χ ⊕ χ'),(out.map .inl : Except ε (α ⊕ α'))) := by cases out <;> trivial
  refine ⟨hdb,h.drop t,?_,List.forall_mem_cons.mpr ⟨hanswer,h.answers⟩⟩
  rw [List.filterMap_cons,hcall,h.log]

theorem Mirrors.answered_aside (h : Mirrors s s₀) {t : ℕ} (ht : s₀.running t = none) (c : χ')
    (out : Except ε (α ⊕ α')) {db : σ × δ} (hdb : s₀.db = db.1) :
    Mirrors ⟨db,(s.drop t).running,(.inr c,out) :: s.log⟩ s₀ := by
  have hrunning := h.drop t
  rw [State.drop_of_none ht] at hrunning
  exact ⟨hdb,hrunning,h.log,List.forall_mem_cons.mpr ⟨trivial,h.answers⟩⟩

variable {S : System σ Lock χ ε α} {body : χ' → Prog (σ × δ) (Lock ⊕ M) ε α'}

/-- The simulation: a step is one of the system as it was, or leaves the first part. -/
theorem Mirrors.step (hbody : ∀ c, Writes Aside (body c)) (h : Mirrors s s₀)
    (hstep : Step (S.beside body) (fun _ _ _ => True) s s') :
    ∃ s₀', Mirrors s' s₀' ∧ (s₀' = s₀ ∨ Step S (fun _ _ _ => True) s₀ s₀') := by
  cases hstep with
  | @env db henv =>
    have hdb : S.env s₀.db db.1 := by
      rw [h.db]
      exact henv.1
    exact ⟨{ s₀ with db := db.1 },⟨rfl,h.running,h.log,h.answers⟩,.inr (.env hdb)⟩
  | @start t c ht =>
    cases c with
    | inl c =>
      have hput := h.put t c ⟨S.body c,.empty,none⟩
      rw [Running.lift,Held.lift_empty] at hput
      exact ⟨_,hput,.inr (.start c (h.idle ht))⟩
    | inr c =>
      have hwrites : Writes Aside ((S.beside body).body (.inr c)) := writes_bind (hbody c) fun _ => trivial
      exact ⟨s₀,h.put_aside (h.idle ht) hwrites (fun _ => rfl) nofun,.inl rfl⟩
  | @stmt t c r β st k o ht hp ho hfree =>
    cases c with
    | inl c =>
      obtain ⟨r,rfl,ht₀⟩ := h.called ht
      obtain ⟨st₀,k₀,hprog,rfl,rfl⟩ := lift_eq_stmt hp
      obtain ⟨o₀,ho₀,rfl⟩ := ho
      have hput := h.put t c ⟨k₀ o₀.result,r.held.after o₀,r.saved⟩
      simp only [Running.lift,Held.lift_after] at hput
      have hview : st₀ (r.held.pending s₀.db) o₀ := by
        rw [h.db]
        exact ho₀
      exact ⟨_,hput,.inr (.stmt ht₀ hprog hview (h.free hfree))⟩
    | inr c =>
      obtain ⟨ht₀,hprog,hheld,hsaved⟩ := h.aside ht
      rw [hp] at hprog
      have hafter : Aside (r.held.after o).locks (r.held.after o).pending :=
        fun db => (hprog.1 _ o ho _).trans (hheld db)
      exact ⟨s₀,h.put_aside ht₀ (hprog.2 _) hafter hsaved,.inl rfl⟩
  | @savepoint t c r f k ht hp =>
    cases c with
    | inl c =>
      obtain ⟨r,rfl,ht₀⟩ := h.called ht
      obtain ⟨f₀,k₀,hprog,rfl,rfl⟩ := lift_eq_savepoint hp
      exact ⟨_,h.put t c ⟨k₀,r.held,some (f₀,r.held)⟩,.inr (.savepoint ht₀ hprog)⟩
    | inr c =>
      obtain ⟨ht₀,hprog,hheld,_⟩ := h.aside ht
      rw [hp] at hprog
      refine ⟨s₀,h.put_aside ht₀ hprog.2 hheld ?_,.inl rfl⟩
      rintro f v ⟨⟩
      exact ⟨hheld,hprog.1⟩
  | @release t c r k ht hp =>
    cases c with
    | inl c =>
      obtain ⟨r,rfl,ht₀⟩ := h.called ht
      obtain ⟨k₀,hprog,rfl⟩ := lift_eq_release hp
      exact ⟨_,h.put t c ⟨k₀,r.held,none⟩,.inr (.release ht₀ hprog)⟩
    | inr c =>
      obtain ⟨ht₀,hprog,hheld,_⟩ := h.aside ht
      rw [hp] at hprog
      exact ⟨s₀,h.put_aside ht₀ hprog hheld nofun,.inl rfl⟩
  | @deadline t c r d k ht hp =>
    cases c with
    | inl c =>
      obtain ⟨r,rfl,ht₀⟩ := h.called ht
      obtain ⟨d₀,k₀,hprog,rfl,rfl⟩ := lift_eq_deadline hp
      exact ⟨_,h.put t c ⟨k₀,r.held.within d₀,r.saved⟩,.inr (.deadline ht₀ hprog)⟩
    | inr c =>
      obtain ⟨ht₀,hprog,hheld,hsaved⟩ := h.aside ht
      rw [hp] at hprog
      exact ⟨s₀,h.put_aside ht₀ hprog hheld hsaved,.inl rfl⟩
  | @fail t c r f v e ht hv =>
    cases c with
    | inl c =>
      obtain ⟨r,rfl,ht₀⟩ := h.called ht
      cases hsaved : r.saved with
      | none => simp [Running.lift,hsaved] at hv
      | some fv =>
        simp only [Running.lift,hsaved,Option.map_some,Option.some.injEq,Prod.mk.injEq] at hv
        obtain ⟨rfl,rfl⟩ := hv
        exact ⟨_,h.put t c ⟨fv.1 e,fv.2,none⟩,.inr (.fail e ht₀ hsaved)⟩
    | inr c =>
      obtain ⟨ht₀,_,_,hsaved⟩ := h.aside ht
      obtain ⟨hheld,hprog⟩ := hsaved f v hv
      exact ⟨s₀,h.put_aside ht₀ (hprog e) hheld nofun,.inl rfl⟩
  | @crash t c r ht =>
    cases c with
    | inl c =>
      obtain ⟨r,rfl,ht₀⟩ := h.called ht
      exact ⟨s₀.drop t,⟨h.db,h.drop t,h.log,h.answers⟩,.inr (.crash ht₀)⟩
    | inr c =>
      have hrunning := h.drop t
      rw [State.drop_of_none (h.aside ht).1] at hrunning
      exact ⟨s₀,⟨h.db,hrunning,h.log,h.answers⟩,.inl rfl⟩
  | @raise t c r e ht hp hv =>
    cases c with
    | inl c =>
      obtain ⟨r,rfl,ht₀⟩ := h.called ht
      have hprog : r.prog = .raise e := lift_eq_raise hp
      have hnone : r.saved = none := by simpa [Running.lift] using hv
      exact ⟨_,h.answered t c (.error e) h.db,.inr (.raise ht₀ hprog hnone)⟩
    | inr c =>
      exact ⟨s₀,h.answered_aside (h.aside ht).1 c (.error e) h.db,.inl rfl⟩
  | @commit t c r a ht hp hdue hok =>
    cases c with
    | inl c =>
      obtain ⟨r,rfl,ht₀⟩ := h.called ht
      obtain ⟨a₀,hprog,rfl⟩ := lift_eq_ret hp
      have hdue₀ : r.held.due s₀.db := by
        rw [h.db]
        exact hdue
      have hdb : r.held.pending s₀.db = (Prod.map r.held.pending id s.db).1 := by
        rw [h.db]
        rfl
      exact ⟨_,h.answered t c (.ok a₀) hdb,.inr (.commit ht₀ hprog hdue₀ trivial)⟩
    | inr c =>
      obtain ⟨ht₀,_,hheld,_⟩ := h.aside ht
      have hdb : s₀.db = (r.held.pending s.db).1 := h.db.trans (hheld s.db).symm
      exact ⟨s₀,h.answered_aside ht₀ c (.ok a) hdb,.inl rfl⟩

theorem Reachable.mirrored {init : σ × δ → Prop} {init₀ : σ → Prop} (hinit : ∀ s, init s → init₀ s.1)
    (hbody : ∀ c, Writes Aside (body c)) (h : Reachable (S.beside body) (fun _ _ _ => True) init s) :
    ∃ s₀, Reachable S (fun _ _ _ => True) init₀ s₀ ∧ Mirrors s s₀ := by
  induction h with
  | @init db hdb => exact ⟨_,.init (hinit db hdb),rfl,fun _ => .idle,rfl,nofun⟩
  | step _ hstep ih =>
    obtain ⟨s₀,hs₀,hmirrors⟩ := ih
    obtain ⟨s₀',hmirrors',rfl | hstep₀⟩ := hmirrors.step hbody hstep
    · exact ⟨_,hs₀,hmirrors'⟩
    · exact ⟨s₀',hs₀.step hstep₀,hmirrors'⟩

end Mirrors

/-- A call of the system as it was, alone beside the second part. -/
theorem Eval.lift {r : Running σ Lock ε α} {s t : σ} {out : Except ε α} (h : Eval r s out t) (d : δ) :
    Eval (r.lift : Running (σ × δ) (Lock ⊕ M) ε (α ⊕ α')) (s,d) (out.map .inl) (t,d) := by
  induction h with
  | ret hdue => exact .ret hdue
  | raise => exact .raise
  | caught _ ih => exact .caught ih
  | @stmt β st k h v s out t o ho _ ih =>
    refine .stmt _ ⟨o,ho,rfl⟩ ?_
    simp only [Running.lift,Held.lift_after] at ih
    exact ih
  | savepoint _ ih => exact .savepoint ih
  | release _ ih => exact .release ih
  | deadline _ ih => exact .deadline ih

theorem Runs.lift {p : Prog σ Lock ε α} {s t : σ} {out : Except ε α} (h : Runs p s out t) (d : δ) :
    Runs (p.lift : Prog (σ × δ) (Lock ⊕ M) ε (α ⊕ α')) (s,d) (out.map .inl) (t,d) := by
  have hlift : Eval ((⟨p,.empty,none⟩ : Running σ Lock ε α).lift : Running (σ × δ) (Lock ⊕ M) ε (α ⊕ α')) (s,d)
    (out.map .inl) (t,d) := Eval.lift h d
  rw [Running.lift,Held.lift_empty] at hlift
  exact hlift

end ReadCommitted
