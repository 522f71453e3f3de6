import Tag2now.Idempotency.Rules
import Tag2now.Transactions.Alone

/-! # Any number of callers

Transactions that run arbitrary writes under a key, beside the tables these write to.
The history of committed calls and of refusals is that of one write for each key: the
first call whose write committed, its answer for the same request ever after, and a
refusal for any other request.
-/
namespace Tag2now.Idempotency
open ReadCommitted

/-- The keys, and the tables the writes work on. -/
structure Database (δ ρ : Type) where
  keys : KeyTable ρ
  app : δ

inductive Lock (M : Type)
  | key (owner : String × String)
  | app (l : M)

variable {δ M ε ρ κ ω α β : Type} (raised : KeyError → ε) (fingerprint : String → κ → String)
  (write : ω → Prog δ M ε ρ)

def keyStore : KeyStore (Database δ ρ) (Lock M) ε ρ where
  get db := db.keys
  put t db := { db with keys := t }
  lock := .key
  raised := raised
  get_put _ _ := rfl

/-- What is not the keys. -/
def others : Part δ (Database δ ρ) M (Lock M) := ⟨Database.app,fun f db => { db with app := f db.app },.app⟩

/-- A program on the other tables, run beside the keys. -/
def lift (p : Prog δ M ε α) : Prog (Database δ ρ) (Lock M) ε α := p.on others id

structure Call (κ ω : Type) where
  subject : String
  key : String
  scope : String
  request : κ
  write : ω

def Call.owner (c : Call κ ω) : String × String := (c.subject,c.key)
def Call.digest (c : Call κ ω) : String := fingerprint c.scope c.request

/-- Calls of the service; whatever else happens to the other tables leaves the keys alone. -/
def service : System (Database δ ρ) (Lock M) (Call κ ω) ε (Once ρ) where
  body c := runOnce (keyStore raised) fingerprint c.subject c.key c.scope c.request (lift (write c.write))
  env s t := t.keys = s.keys

/-- The row a call leaves when its write commits. -/
def Call.row (c : Call κ ω) (answer : ρ) : KeyRow ρ :=
  ⟨c.subject,c.key,c.digest fingerprint,some answer⟩

structure Rely (L : Set (Lock M)) (s t : Database δ ρ) : Prop where
  kept : ∀ {o row}, s.keys.get? o = some row → t.keys.get? o = some row
  absent : ∀ {o}, Lock.key o ∈ L → s.keys.get? o = none → t.keys.get? o = none

inductive Commit (c : Call κ ω) (L : Set (Lock M)) (s t : Database δ ρ) : Once ρ → Prop
  | replayed {answer : ρ} : s.keys.get? c.owner = some (c.row fingerprint answer) → t = s →
      Commit c L s t ⟨answer,false⟩
  | written {answer : ρ} : s.keys.get? c.owner = none → Lock.key c.owner ∈ L →
      (∀ o, t.keys.get? o = if o = c.owner then some (c.row fingerprint answer) else s.keys.get? o) →
      Commit c L s t ⟨answer,true⟩

/-- A call raises because the key is another request's, or with its key unused. -/
def Fail (c : Call κ ω) (e : ε) (s : Database δ ρ) : Prop :=
  (∃ row, s.keys.get? c.owner = some row ∧ row.fingerprint ≠ c.digest fingerprint ∧
    e = raised .reused) ∨ s.keys.get? c.owner = none

def Answered (s : Database δ ρ) : Prop :=
  ∀ ⦃o row⦄, s.keys.get? o = some row → ∃ answer, row.response = some answer

def discipline : Discipline (Database δ ρ) (Lock M) (Call κ ω) ε (Once ρ) where
  Inv := Answered
  Rely := Rely
  Commit c a L s t := Commit fingerprint c L s t a
  Fail := Fail raised fingerprint
  rely_refl _ _ := ⟨fun h => h,fun _ h => h⟩
  rely_trans h k := ⟨fun hr => k.kept (h.kept hr),fun hl ha => k.absent hl (h.absent hl ha)⟩
  rely_mono hsub h := ⟨h.kept,fun hl => h.absent (hsub hl)⟩
  inv_commit hi h := by
    cases h with
    | replayed _ ht => exact ht ▸ hi
    | written _ _ ht =>
      intro o row hrow
      rw [ht] at hrow
      split at hrow
      · cases hrow
        exact ⟨_,rfl⟩
      · exact hi hrow
  rely_commit hi h hdisj := by
    cases h with
    | replayed _ ht =>
      subst ht
      exact ⟨fun h => h,fun _ h => h⟩
    | written hnone hlock ht =>
      refine ⟨fun {o row} hrow => ?_,fun {o} hl ho => ?_⟩
      · rw [ht,if_neg,hrow]
        rintro rfl
        rw [hnone] at hrow
        cases hrow
      · rw [ht,if_neg,ho]
        rintro rfl
        exact Set.disjoint_left.mp hdisj hl hlock

theorem respects : Respects (keyStore raised)
    (discipline raised fingerprint : Discipline (Database δ ρ) (Lock M) (Call κ ω) ε (Once ρ)).toAgreement where
  kept h := h.kept
  absent hl h := h.absent hl
  answered hi hrow := hi hrow

variable {raised fingerprint write}

/-- The write runs with its key inserted and held; it neither sees nor touches the keys. -/
theorem safe_write {c : Call κ ω} (p : Prog δ M ε ρ) {h : Held (Database δ ρ) (Lock M)}
    {s : Database δ ρ} (hlock : Lock.key c.owner ∈ h.locks) (hnone : s.keys.get? c.owner = none)
    (hkeys : ∀ db, db.keys.get? c.owner = none → ∀ o, (h.pending db).keys.get? o =
      if o = c.owner then some (claimed fingerprint c.subject c.key c.scope c.request)
        else db.keys.get? o) :
    Safe (discipline raised fingerprint).toAgreement c (lift p >>= fun answer =>
      complete (keyStore raised) c.subject c.key answer >>= fun _ => .ret ⟨answer,true⟩) h s := by
  induction p generalizing h s with
  | ret a =>
    unfold complete
    simp only [lift,Prog.on,Prog.ret_bind,safe_execute]
    intro s₁ hr₁ _ s₂ hr₂ _ _
    have hnone₁ := hr₁.absent hlock hnone
    have hnone₂ := hr₂.absent (.inl hlock) hnone₁
    refine .written hnone₂ (.inl hlock) fun o => ?_
    have hrespond := KeyStore.lookup_respond (S := keyStore (M := M) raised) c.owner a (h.pending s₂) o
    refine hrespond.trans ?_
    change (if o = c.owner then ((h.pending s₂).keys.get? o).map _ else (h.pending s₂).keys.get? o) = _
    rw [hkeys s₂ hnone₂ o]
    split <;> rfl
  | raise e =>
    intro s₁ hr₁ _
    exact .inr (hr₁.absent hlock hnone)
  | stmt st k ih =>
    rintro s₁ hr₁ _ o ⟨o',_,rfl⟩
    exact ih _ (.inl hlock) (hr₁.absent hlock hnone) fun db hdb => hkeys db hdb
  | savepoint f k ihf ihk => exact ⟨fun e => ihf e hlock hnone hkeys,ihk hlock hnone hkeys⟩
  | release k ih => exact ih hlock hnone hkeys
  | deadline d k ih => exact ih hlock hnone hkeys

variable (raised fingerprint write)

theorem safe_service (c : Call κ ω) (s : Database δ ρ) :
    Safe (discipline raised fingerprint).toAgreement c ((service raised fingerprint write).body c) .empty s := by
  change Safe _ _ (runOnce _ _ _ _ _ _ _) _ _
  rw [← Prog.bind_ret (runOnce _ _ _ _ _ _ _)]
  refine safe_runOnce (respects raised fingerprint) (fun _ => rfl) ?_ ?_ ?_
  · intro s₁ row response _ _ hrow hfp hresponse s₂ hr₂ _ _
    refine .replayed ?_ rfl
    have hkept := hr₂.kept hrow
    have hkey := Table.key_of_get? hrow
    cases row
    cases hkey
    cases hfp
    cases hresponse
    exact hkept
  · intro s₁ row _ _ hrow hfp
    exact .inl ⟨row,hrow,hfp,rfl⟩
  · intro s₁ _ _ hnone
    refine safe_write _ (.inr rfl) hnone fun db hdb o => ?_
    have hinsert := @KeyStore.lookup_insert _ _ _ _ (keyStore (M := M) raised)
      (claimed fingerprint c.subject c.key c.scope c.request) db hdb
    exact hinsert o

theorem discipline_sound : (discipline raised fingerprint).Sound
    (service raised fingerprint write) (fun s => s.keys = Table.empty) where
  init h := by
    intro o row hrow
    rw [h] at hrow
    cases hrow
  env := by
    intro s t hs ht
    have ht : t.keys = s.keys := ht
    refine ⟨fun o row hrow => hs (ht ▸ hrow),fun L => ⟨fun h => ?_,fun _ h => ?_⟩⟩
    · rw [ht]
      exact h
    · rw [ht]
      exact h
  body := safe_service raised fingerprint write

/-! ## One write for each key -/

/-- The entry is a committed write under this key. -/
def writes (o : String × String) : Call κ ω × Except ε (Once ρ) → Bool
  | (c,.ok r) => r.wrote && c.owner = o
  | (_,.error _) => false

/-- The row left by the write the log has under this key. -/
def committed (log : List (Call κ ω × Except ε (Once ρ))) (o : String × String) : Option (KeyRow ρ) :=
  log.findSome? fun entry => match entry with
    | (c,.ok r) => if r.wrote && c.owner = o then some (c.row fingerprint r.answer) else none
    | (_,.error _) => none

/-- What a call ends in, by the write committed under its key before it. -/
inductive Answers (c : Call κ ω) : Option (KeyRow ρ) → Except ε (Once ρ) → Prop
  | written (answer : ρ) : Answers c none (.ok ⟨answer,true⟩)
  | failed (e : ε) : Answers c none (.error e)
  | replayed (answer : ρ) : Answers c (some (c.row fingerprint answer)) (.ok ⟨answer,false⟩)
  | refused (row : KeyRow ρ) : row.fingerprint ≠ c.digest fingerprint →
      Answers c (some row) (.error (raised .reused))

/-- The history of a service that writes once for each key. -/
structure OnlyOnce (db : Database δ ρ) (log : List (Call κ ω × Except ε (Once ρ))) : Prop where
  /-- At most one write commits under a key. -/
  once : ∀ o, log.countP (writes o) ≤ 1
  /-- A key is kept for a committed write, with its fingerprint and its answer, and for no other. -/
  stored : ∀ o, db.keys.get? o = committed fingerprint log o
  /-- A call that returns is the committed request and returns the committed answer. -/
  returned : ∀ c r, (c,.ok r) ∈ log → db.keys.get? c.owner = some (c.row fingerprint r.answer)
  /-- Each call in turn writes or fails on an unused key, and on a used one replays or is refused. -/
  history : ∀ later c out earlier, log = later ++ (c,out) :: earlier →
    Answers raised fingerprint c (committed fingerprint earlier c.owner) out

variable {raised fingerprint write}
variable {db t : Database δ ρ} {log : List (Call κ ω × Except ε (Once ρ))} {c : Call κ ω}

theorem committed_eq_none {o : String × String} :
    committed fingerprint log o = none ↔ log.countP (writes o) = 0 := by
  simp only [committed,List.findSome?_eq_none_iff,List.countP_eq_zero]
  refine forall_congr' fun entry => forall_congr' fun _ => ?_
  obtain ⟨c,out⟩ := entry
  cases out with
  | error e => simp [writes]
  | ok r => simp [writes]

theorem history_cons {out : Except ε (Once ρ)} (hs : OnlyOnce raised fingerprint db log)
    (h : Answers raised fingerprint c (committed fingerprint log c.owner) out) {later earlier}
    {c' : Call κ ω} {out' : Except ε (Once ρ)} (hlog : (c,out) :: log = later ++ (c',out') :: earlier) :
    Answers raised fingerprint c' (committed fingerprint earlier c'.owner) out' := by
  cases later with
  | nil =>
    cases hlog
    exact h
  | cons entry later =>
    obtain ⟨_,hlog⟩ := List.cons.inj hlog
    exact hs.history later c' out' earlier hlog

theorem OnlyOnce.replay (hs : OnlyOnce raised fingerprint db log) {answer : ρ}
    (hrow : db.keys.get? c.owner = some (c.row fingerprint answer)) :
    OnlyOnce raised fingerprint db ((c,.ok ⟨answer,false⟩) :: log) := by
  refine ⟨fun o => ?_,fun o => ?_,fun c' r hr => ?_,fun later c' out earlier hlog => ?_⟩
  · simpa [writes] using hs.once o
  · simpa [committed] using hs.stored o
  · rcases List.mem_cons.mp hr with h | h
    · cases h
      exact hrow
    · exact hs.returned c' r h
  · refine history_cons hs ?_ hlog
    rw [← hs.stored,hrow]
    exact .replayed answer

theorem OnlyOnce.written (hs : OnlyOnce raised fingerprint db log) {answer : ρ}
    (hnone : db.keys.get? c.owner = none)
    (ht : ∀ o, t.keys.get? o = if o = c.owner then some (c.row fingerprint answer) else db.keys.get? o) :
    OnlyOnce raised fingerprint t ((c,.ok ⟨answer,true⟩) :: log) := by
  have hunused : committed fingerprint log c.owner = none := (hs.stored c.owner).symm.trans hnone
  refine ⟨fun o => ?_,fun o => ?_,fun c' r hr => ?_,fun later c' out earlier hlog => ?_⟩
  · rw [List.countP_cons]
    by_cases ho : c.owner = o
    · subst ho
      rw [committed_eq_none.mp hunused]
      split <;> omega
    · simpa [writes,ho] using hs.once o
  · rw [ht]
    by_cases ho : c.owner = o
    · simp [committed,ho]
    · have ho' : o ≠ c.owner := fun h => ho h.symm
      rw [if_neg ho',hs.stored]
      simp [committed,ho]
  · rw [ht]
    rcases List.mem_cons.mp hr with h | h
    · cases h
      exact if_pos rfl
    · have hrow := hs.returned c' r h
      rw [if_neg,hrow]
      intro ho
      rw [ho,hnone] at hrow
      cases hrow
  · refine history_cons hs ?_ hlog
    rw [hunused]
    exact .written answer

theorem OnlyOnce.raise (hs : OnlyOnce raised fingerprint db log) {e : ε}
    (h : Fail raised fingerprint c e db) : OnlyOnce raised fingerprint db ((c,.error e) :: log) := by
  refine ⟨fun o => ?_,fun o => ?_,fun c' r hr => ?_,fun later c' out earlier hlog => ?_⟩
  · simpa [writes] using hs.once o
  · simpa [committed] using hs.stored o
  · rcases List.mem_cons.mp hr with h | h
    · cases h
    · exact hs.returned c' r h
  · refine history_cons hs ?_ hlog
    rw [← hs.stored]
    rcases h with ⟨row,hrow,hfp,rfl⟩ | hnone
    · rw [hrow]
      exact .refused row hfp
    · rw [hnone]
      exact .failed e

theorem onlyOnce_of_atomic (h : Atomic (service raised fingerprint write) (fun _ _ _ => True)
    (discipline raised fingerprint) (fun s => s.keys = Table.empty) db log) :
    OnlyOnce raised fingerprint db log := by
  induction h with
  | init h => exact ⟨fun _ => Nat.zero_le _,fun o => by rw [h]; rfl,nofun,fun later _ _ _ h => by
      cases later <;> cases h⟩
  | env _ _ henv ih =>
    have hkeys := henv
    exact ⟨ih.once,fun o => by rw [hkeys]; exact ih.stored o,
      fun c r hr => by rw [hkeys]; exact ih.returned c r hr,ih.history⟩
  | commit _ _ _ hc ih =>
    cases hc with
    | replayed hrow ht =>
      subst ht
      exact ih.replay hrow
    | written hnone _ ht => exact ih.written hnone ht
  | raise _ _ hf ih => exact ih.raise hf

/-- Whatever the calls, their writes and their interleaving, each key sees one write. -/
theorem runOnce_onlyOnce {s : State (Database δ ρ) (Lock M) (Call κ ω) ε (Once ρ)}
    (h : Reachable (service raised fingerprint write) (fun _ _ _ => True)
      (fun s => s.keys = Table.empty) s) : OnlyOnce raised fingerprint s.db s.log :=
  onlyOnce_of_atomic (h.refines (discipline_sound raised fingerprint write)).1

/-- A write that counts the posts, and answers the number of the new one. -/
def countPost (_ : Unit) : Prog ℕ Empty KeyError ℕ :=
  .execute (fun posts => posts + 1) (fun _ => ∅) (fun _ posts => posts + 1)

def joined (scope request : String) : String := scope ++ request

def firstPost : Call String Unit := ⟨"alice","k","community.post","hello",()⟩
def otherPost : Call String Unit := ⟨"alice","k","community.post","bye",()⟩

def posted : Database ℕ ℕ := ⟨Table.empty.insert (firstPost.row joined 1),1⟩

def afterRetries : State (Database ℕ ℕ) (Lock Empty) (Call String Unit) KeyError (Once ℕ) :=
  ⟨posted,fun _ => none,[(otherPost,.error .reused),(firstPost,.ok ⟨1,false⟩),(firstPost,.ok ⟨1,true⟩)]⟩

theorem reachable_afterRetries : Reachable (service id joined countPost) (fun _ _ _ => True)
    (fun s => s.keys = Table.empty) afterRetries := by
  have hinit : Reachable (service id joined countPost) (fun _ _ _ => True)
    (fun s => s.keys = Table.empty) ⟨⟨Table.empty,0⟩,fun _ => none,[]⟩ := .init rfl
  have hwrite : Runs ((service id joined countPost).body firstPost) ⟨Table.empty,0⟩
      (.ok ⟨1,true⟩) posted :=
    .stmt _ rfl (.stmt _ ⟨_,rfl,rfl⟩ (.stmt _ rfl (.ret trivial)))
  have hreplay : Runs ((service id joined countPost).body firstPost) posted (.ok ⟨1,false⟩) posted :=
    .stmt _ rfl (.stmt _ rfl (.ret trivial))
  have hrefuse : Runs ((service id joined countPost).body otherPost) posted (.error .reused) posted :=
    .stmt _ rfl (.stmt _ rfl .raise)
  have hfirst := hinit.call (fun _ => rfl) hwrite fun _ _ => trivial
  have hsecond := hfirst.call (fun _ => rfl) hreplay fun _ _ => trivial
  exact hsecond.call (fun _ => rfl) hrefuse nofun

theorem runOnce_onlyOnce_afterRetries : OnlyOnce id joined afterRetries.db afterRetries.log :=
  runOnce_onlyOnce reachable_afterRetries

end Tag2now.Idempotency
