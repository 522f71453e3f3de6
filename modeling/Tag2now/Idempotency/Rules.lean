import Tag2now.Idempotency.Store
import Tag2now.Transactions.Serial
import Tag2now.Transactions.RelyGuarantee

/-! # The rule for a write that runs once

What a discipline has to say about the keys, and what is then left to check of a
program that runs a write once: that the stored answer may be given, that a different
request may be refused, and that the write may run while the key is held. A call alone
does one of these.
-/
namespace Tag2now.Idempotency
open ReadCommitted

variable {σ Lock χ ε α ρ κ : Type} {S : KeyStore σ Lock ε ρ} {D : Agreement σ Lock χ ε α}

/-- A stored key stays as it is, and an absent one stays absent for its holder. -/
structure Respects (S : KeyStore σ Lock ε ρ) (D : Agreement σ Lock χ ε α) : Prop where
  kept : ∀ {L s t o row}, D.Rely L s t → S.lookup s o = some row → S.lookup t o = some row
  absent : ∀ {L s t o}, S.lock o ∈ L → D.Rely L s t → S.lookup s o = none → S.lookup t o = none
  answered : ∀ {s o row}, D.Inv s → S.lookup s o = some row → ∃ response, row.response = some response

/-- The entry a call has inserted for itself. -/
def claimed (fingerprint : String → κ → String) (subject key scope : String) (request : κ) : KeyRow ρ :=
  ⟨subject,key,fingerprint scope request,none⟩

/-- The key, its answer and the write between them. -/
def onceWritten (S : KeyStore σ Lock ε ρ) (fingerprint : String → κ → String) (subject key scope : String)
    (request : κ) (answer : ρ) (write : σ → σ) (db : σ) : σ :=
  S.respond (subject,key) answer (write (S.insert (claimed fingerprint subject key scope request) db))

theorem lookup_onceWritten {fingerprint : String → κ → String} {subject key scope : String} {request : κ} {answer : ρ}
    {write : σ → σ} {db : σ} (hwrite : ∀ db, S.get (write db) = S.get db) (hnone : S.lookup db (subject,key) = none)
    (o : String × String) : S.lookup (onceWritten S fingerprint subject key scope request answer write db) o =
      if o = (subject,key) then some ⟨subject,key,fingerprint scope request,some answer⟩ else S.lookup db o := by
  have hinserted : S.lookup (write (S.insert (claimed fingerprint subject key scope request) db)) o =
      if o = (subject,key) then some (claimed fingerprint subject key scope request) else S.lookup db o := by
    have hinsert := @KeyStore.lookup_insert _ _ _ _ S (claimed fingerprint subject key scope request) db hnone o
    unfold KeyStore.lookup at hinsert ⊢
    rw [hwrite]
    exact hinsert
  unfold onceWritten
  rw [KeyStore.lookup_respond,hinserted]
  by_cases ho : o = (subject,key)
  · simp [ho,claimed]
  · simp [ho]

theorem safe_runOnce (hD : Respects S D) {c : χ} {fingerprint : String → κ → String}
    {subject key scope : String} {request : κ} {write : Prog σ Lock ε ρ} {k : Once ρ → Prog σ Lock ε α}
    {h : Held σ Lock} {s : σ} (hview : ∀ s, S.lookup (h.pending s) = S.lookup s)
    (replay : ∀ s' row response, D.Rely h.locks s s' → D.Inv s' → S.lookup s' (subject,key) = some row →
      row.fingerprint = fingerprint scope request → row.response = some response →
      Safe D c (k ⟨response,false⟩) h s')
    (reuse : ∀ s' row, D.Rely h.locks s s' → D.Inv s' → S.lookup s' (subject,key) = some row →
      row.fingerprint ≠ fingerprint scope request → D.Fail c (S.raised .reused) s')
    (run : ∀ s', D.Rely h.locks s s' → D.Inv s' → S.lookup s' (subject,key) = none →
      Safe D c (write >>= fun answer => complete S subject key answer >>= fun _ => k ⟨answer,true⟩)
        ⟨S.insert (claimed fingerprint subject key scope request) ∘ h.pending,
          h.locks ∪ {S.lock (subject,key)},h.due⟩ s') :
    Safe D c (runOnce S fingerprint subject key scope request write >>= k) h s := by
  unfold runOnce claim
  simp only [Prog.bind_assoc,safe_execute]
  intro s₁ hr₁ hi₁
  rw [hview s₁]
  cases hlookup : S.lookup s₁ (subject,key) with
  | none =>
    have hrun := run s₁ hr₁ hi₁ hlookup
    simpa [Prog.bind_assoc,claimed] using hrun
  | some row =>
    simp only [Option.isNone_some,Bool.false_eq_true,if_false,Set.union_empty,Function.id_comp,
      Prog.bind_assoc,safe_query]
    intro s₂ hr₂ hi₂
    have hr := D.rely_trans hr₁ hr₂
    have hkept := hD.kept hr₂ hlookup
    rw [hview s₂,hkept]
    simp only
    split
    · rename_i hfp
      obtain ⟨response,hresponse⟩ := hD.answered hi₂ hkept
      simp only [Prog.pure_eq,Prog.ret_bind,hresponse]
      exact replay s₂ row response hr hi₂ hkept hfp hresponse
    · rename_i hfp
      intro s₃ hr₃ hi₃
      exact reuse s₃ row (D.rely_trans hr hr₃) hi₃ (hD.kept hr₃ hkept) hfp

/-- A write that runs once changes the keys, and what it writes itself. -/
theorem writes_runOnce {P : Set Lock → (σ → σ) → Prop}
    (hkeys : ∀ L f, (∀ db, f db = db ∨ ∃ t, f db = S.put t db) → P L f)
    {fingerprint : String → κ → String} {subject key scope : String} {request : κ} {write : Prog σ Lock ε ρ}
    (hwrite : Writes P write) : Writes P (runOnce S fingerprint subject key scope request write) := by
  have hid : P ∅ id := hkeys ∅ id fun _ => .inl rfl
  have hcomplete (answer : ρ) : Writes P (complete S subject key answer) :=
    writes_execute fun _ => hkeys _ _ fun _ => .inr ⟨_,rfl⟩
  have hclaim : Writes P (claim S subject key (fingerprint scope request)) := by
    refine writes_bind (writes_execute fun v => hkeys _ _ fun db => ?_) fun claimed => ?_
    · split
      · exact .inr ⟨_,rfl⟩
      · exact .inl rfl
    · cases claimed with
      | true => trivial
      | false =>
        refine writes_bind (writes_query hid _) fun stored => ?_
        cases stored with
        | none => trivial
        | some stored =>
          simp only
          split <;> trivial
  refine writes_bind hclaim fun stored => ?_
  cases stored with
  | none => exact writes_bind hwrite fun answer => writes_bind (hcomplete answer) fun _ => trivial
  | some response => trivial

section Alone
variable {fingerprint : String → κ → String} {subject key scope : String} {request : κ}
  {write : Prog σ Lock ε ρ} {k : Once ρ → Prog σ Lock ε α} {h : Held σ Lock}
  {v : Option ((ε → Prog σ Lock ε α) × Held σ Lock)} {s t : σ} {out : Except ε α}

theorem eval_runOnce_stored {row : KeyRow ρ} {response : ρ} (hview : h.pending s = s)
    (hrow : S.lookup s (subject,key) = some row) (hfp : row.fingerprint = fingerprint scope request)
    (hresponse : row.response = some response) :
    Eval ⟨runOnce S fingerprint subject key scope request write >>= k,h,v⟩ s out t ↔
      Eval ⟨k ⟨response,false⟩,h,v⟩ s out t := by
  unfold runOnce claim
  rw [Prog.bind_assoc,Prog.bind_assoc,eval_execute,hview,hrow]
  simp only [Option.isNone_some,Bool.false_eq_true,if_false,Set.union_empty,Function.id_comp,
    Prog.bind_assoc,eval_query,hview,hrow,hfp,if_true,hresponse,Prog.pure_eq,Prog.ret_bind]

theorem eval_runOnce_new (hview : h.pending s = s) (hnone : S.lookup s (subject,key) = none) :
    Eval ⟨runOnce S fingerprint subject key scope request write >>= k,h,v⟩ s out t ↔
      Eval ⟨write >>= fun answer => complete S subject key answer >>= fun _ => k ⟨answer,true⟩,
        ⟨S.insert (claimed fingerprint subject key scope request) ∘ h.pending,
          h.locks ∪ {S.lock (subject,key)},h.due⟩,v⟩ s out t := by
  unfold runOnce claim
  rw [Prog.bind_assoc,Prog.bind_assoc,eval_execute,hview,hnone]
  simp only [Option.isNone_none,if_true,Prog.bind_assoc,Prog.pure_eq,Prog.ret_bind,claimed]

end Alone

/-- With nobody else running, the call answers what is stored, or writes with at most the keys changed. -/
theorem solo_runOnce {E : σ → σ → Prop} {Q : α → σ → Prop} (htrans : ∀ s t u, E s t → E t u → E s u)
    {fingerprint : String → κ → String} {subject key scope : String} {request : κ} {write : Prog σ Lock ε ρ}
    {k : Once ρ → Prog σ Lock ε α} {h : Held σ Lock} {s : σ}
    (replay : ∀ s' response pending locks, E s s' → (∀ db, pending db = h.pending db) →
      Solo E Q (k ⟨response,false⟩) ⟨pending,locks,h.due⟩ s')
    (run : ∀ s' pending locks, E s s' → (∀ db, pending db = h.pending db ∨ ∃ t, pending db = S.put t (h.pending db)) →
      Solo E Q (write >>= fun answer => complete S subject key answer >>= fun _ => k ⟨answer,true⟩)
        ⟨pending,locks,h.due⟩ s') :
    Solo E Q (runOnce S fingerprint subject key scope request write >>= k) h s := by
  unfold runOnce claim
  simp only [Prog.bind_assoc,solo_execute]
  intro s₁ h₁
  cases hlookup : S.lookup (h.pending s₁) (subject,key) with
  | none =>
    simp only [Option.isNone_none,if_true,Prog.pure_eq,Prog.ret_bind,Prog.bind_assoc]
    exact run s₁ _ _ h₁ fun _ => .inr ⟨_,rfl⟩
  | some row =>
    simp only [Option.isNone_some,Bool.false_eq_true,if_false,Prog.bind_assoc,solo_query]
    intro s₂ h₂
    have h₂' := htrans _ _ _ h₁ h₂
    split
    · trivial
    · split
      · rename_i stored _ _
        cases hresponse : stored.response with
        | none =>
          simp only [Prog.pure_eq,Prog.ret_bind,Prog.bind_assoc]
          exact run s₂ _ _ h₂' fun _ => .inl rfl
        | some response =>
          simp only [Prog.pure_eq,Prog.ret_bind]
          exact replay s₂ response _ _ h₂' fun _ => rfl
      · trivial

end Tag2now.Idempotency
