import Tag2now.Transactions.Alone

/-! # Calls one after another

A serial run makes one call at a time, each to its end, while the environment goes on. The
condition under which a program ends as wanted follows its statements; no locks are needed for
it, since nobody else writes.
-/
namespace ReadCommitted
variable {σ Lock χ ε α β : Type}

/-- The rest of the program ends in `out` and leaves `t` committed; meanwhile only the environment
and failures inside a savepoint happen. -/
inductive Ends (E : σ → σ → Prop) : Running σ Lock ε α → σ → Except ε α → σ → Prop
  | env {r : Running σ Lock ε α} {s s' out t} : E s s' → Ends E r s' out t → Ends E r s out t
  | ret {a : α} {h : Held σ Lock} {v s} : h.due s → Ends E ⟨.ret a,h,v⟩ s (.ok a) (h.pending s)
  | raise {e : ε} {h : Held σ Lock} {s} : Ends E ⟨.raise e,h,none⟩ s (.error e) s
  | caught {r : Running σ Lock ε α} {v : Held σ Lock} {f : ε → Prog σ Lock ε α} {s out t} (e : ε) :
      r.saved = some (f,v) → Ends E ⟨f e,v,none⟩ s out t → Ends E r s out t
  | stmt {β : Type} {st : Stmt σ Lock β} {k : β → Prog σ Lock ε α} {h : Held σ Lock} {v s out t}
      (o : Outcome σ Lock β) : st (h.pending s) o → Ends E ⟨k o.result,h.after o,v⟩ s out t →
      Ends E ⟨.stmt st k,h,v⟩ s out t
  | savepoint {f : ε → Prog σ Lock ε α} {k : Prog σ Lock ε α} {h : Held σ Lock} {v s out t} :
      Ends E ⟨k,h,some (f,h)⟩ s out t → Ends E ⟨.savepoint f k,h,v⟩ s out t
  | release {k : Prog σ Lock ε α} {h : Held σ Lock} {v s out t} :
      Ends E ⟨k,h,none⟩ s out t → Ends E ⟨.release k,h,v⟩ s out t
  | deadline {d : σ → Prop} {k : Prog σ Lock ε α} {h : Held σ Lock} {v s out t} :
      Ends E ⟨k,h.within d,v⟩ s out t → Ends E ⟨.deadline d k,h,v⟩ s out t

/-- A call with nobody else running. -/
def Calls (S : System σ Lock χ ε α) (s : σ) (c : χ) (out : Except ε α) (t : σ) : Prop :=
  Ends S.env ⟨S.body c,.empty,none⟩ s out t

/-- Calls one after another, with their answers in order. A call that is cut off leaves nothing. -/
inductive Serial (S : System σ Lock χ ε α) (s : σ) : List (χ × Except ε α) → σ → Prop
  | nil : Serial S s [] s
  | env {log t u} : Serial S s log t → S.env t u → Serial S s log u
  | call {log t u} {c : χ} {out : Except ε α} : Serial S s log t → Calls S t c out u →
      Serial S s (log ++ [(c,out)]) u

/-- The program, wherever the environment leads, answers only with `Q`. -/
def Solo (E : σ → σ → Prop) (Q : α → σ → Prop) : Prog σ Lock ε α → Held σ Lock → σ → Prop
  | .ret a, h, s => ∀ s', E s s' → h.due s' → Q a (h.pending s')
  | .raise _, _, _ => True
  | .stmt st k, h, s => ∀ s', E s s' → ∀ o, st (h.pending s') o → Solo E Q (k o.result) (h.after o) s'
  | .savepoint f k, h, s => (∀ e s', E s s' → Solo E Q (f e) h s') ∧ Solo E Q k h s
  | .release k, h, s => Solo E Q k h s
  | .deadline d k, h, s => Solo E Q k (h.within d) s

section Sound
variable {E : σ → σ → Prop} {Q : α → σ → Prop} (hrefl : ∀ s, E s s) (htrans : ∀ s t u, E s t → E t u → E s u)

include htrans in
theorem Solo.env {p : Prog σ Lock ε α} {h : Held σ Lock} {s s' : σ} (hp : Solo E Q p h s) (hs : E s s') :
    Solo E Q p h s' := by
  induction p generalizing h with
  | ret a => exact fun t ht => hp t (htrans _ _ _ hs ht)
  | raise e => trivial
  | stmt st k ih => exact fun t ht => hp t (htrans _ _ _ hs ht)
  | savepoint f k ihf ihk => exact ⟨fun e t ht => hp.1 e t (htrans _ _ _ hs ht),ihk hp.2⟩
  | release k ih => exact ih hp
  | deadline d k ih => exact ih hp

theorem Solo.mono {Q' : α → σ → Prop} (hQ : ∀ a t, Q a t → Q' a t) {p : Prog σ Lock ε α} {h : Held σ Lock} {s : σ}
    (hp : Solo E Q p h s) : Solo E Q' p h s := by
  induction p generalizing h s with
  | ret a => exact fun s' hs' hdue => hQ _ _ (hp s' hs' hdue)
  | raise e => trivial
  | stmt st k ih => exact fun s' hs' o ho => ih _ (hp s' hs' o ho)
  | savepoint f k ihf ihk => exact ⟨fun e s' hs' => ihf e (hp.1 e s' hs'),ihk hp.2⟩
  | release k ih => exact ih hp
  | deadline d k ih => exact ih hp

include hrefl htrans in
theorem Ends.solo {r : Running σ Lock ε α} {s t : σ} {out : Except ε α} (h : Ends E r s out t)
    (hr : Solo E Q r.prog r.held s)
    (hsaved : ∀ f v, r.saved = some (f,v) → ∀ e s', E s s' → Solo E Q (f e) v s') :
    ∀ a, out = .ok a → Q a t := by
  induction h with
  | env hs _ ih =>
    exact ih (hr.env htrans hs) fun f v hv e s' hs' => hsaved f v hv e s' (htrans _ _ _ hs hs')
  | ret hdue =>
    rintro a ⟨⟩
    exact hr _ (hrefl _) hdue
  | raise => nofun
  | @caught _ v f s _ _ e hv _ ih => exact ih (hsaved f v hv e s (hrefl s)) nofun
  | stmt o ho _ ih => exact ih (hr _ (hrefl _) o ho) hsaved
  | savepoint _ ih =>
    apply ih hr.2
    rintro f v ⟨⟩
    exact hr.1
  | release _ ih => exact ih hr nofun
  | deadline _ ih => exact ih hr hsaved

include hrefl htrans in
theorem Ends.failed {r : Running σ Lock ε α} {s t : σ} {e : ε} (h : Ends E r s (.error e) t) : E s t := by
  generalize hout : (.error e : Except ε α) = out at h
  induction h with
  | env hs _ ih => exact htrans _ _ _ hs (ih hout)
  | ret => cases hout
  | raise => exact hrefl _
  | caught _ _ _ ih => exact ih hout
  | stmt _ _ _ ih => exact ih hout
  | savepoint _ ih => exact ih hout
  | release _ ih => exact ih hout
  | deadline _ ih => exact ih hout

include hrefl htrans in
theorem Calls.solo {S : System σ Lock χ ε α} {s t : σ} {c : χ} {a : α} (hE : S.env = E)
    (h : Calls S s c (.ok a) t) (hr : Solo E Q (S.body c) .empty s) : Q a t := by
  subst hE
  exact Ends.solo hrefl htrans h hr nofun a rfl

include hrefl htrans in
theorem ends_query {f : σ → β} {k : β → Prog σ Lock ε α} {h : Held σ Lock} {s t : σ} {out : Except ε α} :
    Ends E ⟨Prog.query f >>= k,h,none⟩ s out t ↔ ∃ s', E s s' ∧ Ends E ⟨k (f (h.pending s')),h,none⟩ s' out t := by
  constructor
  · intro he
    generalize hr : (⟨Prog.query f >>= k,h,none⟩ : Running σ Lock ε α) = r at he
    induction he with
    | env hs _ ih =>
      obtain ⟨s',hs',hk⟩ := ih hr
      exact ⟨s',htrans _ _ _ hs hs',hk⟩
    | stmt o ho hk =>
      cases hr
      cases ho
      rw [Held.after_read] at hk
      exact ⟨_,hrefl _,hk⟩
    | caught _ hv _ =>
      subst hr
      cases hv
    | _ => cases hr
  · rintro ⟨s',hs',hk⟩
    rw [← Held.after_read h (f (h.pending s'))] at hk
    exact .env hs' (.stmt _ rfl hk)

end Sound

section Rules
variable {E : σ → σ → Prop} {Q : α → σ → Prop} {h : Held σ Lock} {s : σ} {k : β → Prog σ Lock ε α}

theorem solo_perform {st : Stmt σ Lock β} : Solo E Q (Prog.perform st >>= k) h s ↔
    ∀ s', E s s' → ∀ o, st (h.pending s') o → Solo E Q (k o.result) (h.after o) s' := Iff.rfl

theorem solo_query {f : σ → β} : Solo E Q (Prog.query f >>= k) h s ↔
    ∀ s', E s s' → Solo E Q (k (f (h.pending s'))) h s' := by
  simp only [Prog.query,solo_perform,forall_eq,Held.after_read]

theorem solo_choose {p : σ → β → Prop} : Solo E Q (Prog.choose p >>= k) h s ↔
    ∀ s', E s s' → ∀ b, p (h.pending s') b → Solo E Q (k b) h s' := by
  simp only [Prog.choose,solo_perform]
  constructor
  · intro hs s' hs' b hb
    simpa using hs s' hs' _ ⟨b,hb,rfl⟩
  · rintro hs s' hs' _ ⟨b,hb,rfl⟩
    simpa using hs s' hs' b hb

theorem solo_execute {f : σ → β} {locks : σ → Set Lock} {write : σ → σ → σ} :
    Solo E Q (Prog.execute f locks write >>= k) h s ↔ ∀ s', E s s' →
      Solo E Q (k (f (h.pending s'))) ⟨write (h.pending s') ∘ h.pending,h.locks ∪ locks (h.pending s'),h.due⟩ s' := by
  simp only [Prog.execute,solo_perform,forall_eq,Held.after]

theorem solo_ofExcept {x : Except ε β} (hk : ∀ b, x = .ok b → Solo E Q (k b) h s) :
    Solo E Q (Prog.ofExcept x >>= k) h s := by
  cases x with
  | error e => trivial
  | ok b => exact hk b rfl

theorem solo_ensure {p : Prop} [Decidable p] {e : ε} {k : Unit → Prog σ Lock ε α} (hk : Solo E Q (k ()) h s) :
    Solo E Q (Prog.ensure p e >>= k) h s := by
  unfold Prog.ensure
  split
  · exact hk
  · trivial

end Rules

theorem Eval.ends {r : Running σ Lock ε α} {s t : σ} {out : Except ε α} (h : Eval r s out t) (E : σ → σ → Prop) :
    Ends E r s out t := by
  induction h with
  | ret hdue => exact .ret hdue
  | raise => exact .raise
  | caught _ ih => exact .caught _ rfl ih
  | stmt o ho _ ih => exact .stmt o ho ih
  | savepoint _ ih => exact .savepoint ih
  | release _ ih => exact .release ih
  | deadline _ ih => exact .deadline ih

/-! ## Serial runs are runs -/

variable {S : System σ Lock χ ε α} {init : σ → Prop}

theorem Ends.finish {s : State σ Lock χ ε α} {u : ℕ} {c : χ} {r : Running σ Lock ε α} {out : Except ε α} {t : σ}
    (h : Ends S.env r s.db out t) (hfree : s.Lockless u)
    (hs : Reachable S (fun _ _ _ => True) init (s.put u c r)) :
    Reachable S (fun _ _ _ => True) init ⟨t,(s.drop u).running,(c,out) :: s.log⟩ := by
  have hrun (s : State σ Lock χ ε α) (r : Running σ Lock ε α) : (s.put u c r).running u = some (c,r) := by
    rw [State.put_running,if_pos rfl]
  generalize hdb : s.db = db at h
  induction h generalizing s with
  | @env r db db' out t henv _ ih =>
    subst hdb
    exact @ih { s with db := db' } hfree (hs.step (.env henv)) rfl
  | @ret a h v _ hdue =>
    subst hdb
    have hstep := hs.step (.commit (hrun _ _) rfl hdue trivial)
    simp only [State.drop_put] at hstep
    exact hstep
  | raise =>
    subst hdb
    have hstep := hs.step (.raise (hrun _ _) rfl rfl)
    simp only [State.drop_put] at hstep
    exact hstep
  | caught e hv _ ih =>
    have hstep := hs.step (.fail e (hrun _ _) hv)
    rw [State.put_put] at hstep
    exact ih hfree hstep hdb
  | stmt o ho _ ih =>
    subst hdb
    have hstep := hs.step (.stmt (hrun _ _) rfl ho (hfree.free _ _ _))
    rw [State.put_put] at hstep
    exact ih hfree hstep rfl
  | savepoint _ ih =>
    have hstep := hs.step (.savepoint (hrun _ _) rfl)
    rw [State.put_put] at hstep
    exact ih hfree hstep hdb
  | release _ ih =>
    have hstep := hs.step (.release (hrun _ _) rfl)
    rw [State.put_put] at hstep
    exact ih hfree hstep hdb
  | deadline _ ih =>
    have hstep := hs.step (.deadline (hrun _ _) rfl)
    rw [State.put_put] at hstep
    exact ih hfree hstep hdb

/-- What a serial run reaches, some interleaving reaches. -/
theorem Serial.reachable {s t : σ} {log : List (χ × Except ε α)} (h : Serial S s log t) (hs : init s) :
    Reachable S (fun _ _ _ => True) init ⟨t,fun _ => none,log.reverse⟩ := by
  induction h with
  | nil => exact .init hs
  | env _ henv ih => exact ih.step (.env henv)
  | @call log t u c out _ hcall ih =>
    have hstart := ih.step (.start (S := S) c (t := 0) rfl)
    have hends : Ends S.env ⟨S.body c,.empty,none⟩ t out u := hcall
    have hend := @Ends.finish _ _ _ _ _ S init ⟨t,fun _ => none,log.reverse⟩ 0 c _ _ _ hends
      (fun t c r _ ht => by cases ht) hstart
    rw [List.reverse_append]
    rw [State.drop_of_none rfl] at hend
    exact hend

end ReadCommitted
