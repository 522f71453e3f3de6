import Mathlib.Data.Set.Lattice
import Mathlib.Order.CompletePartialOrder
import Tag2now.Transactions.Program

/-! # Interleaved transactions at READ COMMITTED

Any number of transactions run at once, one statement at a time and in any order.
A statement sees the committed database under the transaction's own writes, and is
enabled only while no other open transaction holds a lock it takes. A commit
publishes the writes in one step; a crash, a server error or a failed statement
outside a savepoint leaves nothing behind. The log keeps what the finished calls
answered, newest first.
-/
namespace ReadCommitted
variable {σ Lock χ ε α β : Type}

/-- What an open transaction has so far: its writes, its locks and its deadlines. -/
structure Held (σ Lock : Type) where
  pending : σ → σ
  locks : Set Lock
  due : σ → Prop

namespace Held

def empty : Held σ Lock := ⟨id,∅,fun _ => True⟩

def after (h : Held σ Lock) (o : Outcome σ Lock β) : Held σ Lock :=
  ⟨o.write ∘ h.pending,h.locks ∪ o.locks,h.due⟩

def within (h : Held σ Lock) (d : σ → Prop) : Held σ Lock := ⟨h.pending,h.locks,fun s => h.due s ∧ d s⟩

@[simp] theorem empty_pending (s : σ) : (empty : Held σ Lock).pending s = s := rfl
@[simp] theorem within_pending (h : Held σ Lock) (d : σ → Prop) : (h.within d).pending = h.pending := rfl

@[simp] theorem after_read (h : Held σ Lock) (b : β) : h.after ⟨b,∅,id⟩ = h := by
  simp [after]

end Held

structure Running (σ Lock ε α : Type) : Type 1 where
  prog : Prog σ Lock ε α
  held : Held σ Lock
  /-- Who takes over on a failure, and what was held when the savepoint was set. -/
  saved : Option ((ε → Prog σ Lock ε α) × Held σ Lock)

structure State (σ Lock χ ε α : Type) : Type 1 where
  db : σ
  running : ℕ → Option (χ × Running σ Lock ε α)
  log : List (χ × Except ε α)

/-- The calls a client can make, and what may happen to the database besides them. -/
structure System (σ Lock χ ε α : Type) : Type 1 where
  body : χ → Prog σ Lock ε α
  env : σ → σ → Prop

namespace State

def put (s : State σ Lock χ ε α) (t : ℕ) (c : χ) (r : Running σ Lock ε α) : State σ Lock χ ε α :=
  { s with running := Function.update s.running t (some (c,r)) }

def drop (s : State σ Lock χ ε α) (t : ℕ) : State σ Lock χ ε α :=
  { s with running := Function.update s.running t none }

/-- No open transaction but `t` holds one of these locks. -/
def Free (s : State σ Lock χ ε α) (t : ℕ) (locks : Set Lock) : Prop :=
  ∀ u c r, u ≠ t → s.running u = some (c,r) → Disjoint locks r.held.locks

/-- Nothing is running. -/
def Quiet (s : State σ Lock χ ε α) : Prop := ∀ t, s.running t = none

end State

variable (S : System σ Lock χ ε α) (ok : χ → α → σ → Prop)

/-- One step of the system. Only commits meeting `ok` are taken; the system itself
has no such restriction, and runs as `fun _ _ _ => True`. -/
inductive Step (s : State σ Lock χ ε α) : State σ Lock χ ε α → Prop
  | env {db : σ} : S.env s.db db → Step s { s with db := db }
  | start {t : ℕ} (c : χ) : s.running t = none → Step s (s.put t c ⟨S.body c,.empty,none⟩)
  | stmt {t : ℕ} {c : χ} {r : Running σ Lock ε α} {β : Type} {st : Stmt σ Lock β}
      {k : β → Prog σ Lock ε α} {o : Outcome σ Lock β} :
      s.running t = some (c,r) → r.prog = .stmt st k → st (r.held.pending s.db) o →
      s.Free t o.locks → Step s (s.put t c ⟨k o.result,r.held.after o,r.saved⟩)
  | savepoint {t : ℕ} {c : χ} {r : Running σ Lock ε α} {h : ε → Prog σ Lock ε α}
      {k : Prog σ Lock ε α} : s.running t = some (c,r) → r.prog = .savepoint h k →
      Step s (s.put t c ⟨k,r.held,some (h,r.held)⟩)
  | release {t : ℕ} {c : χ} {r : Running σ Lock ε α} {k : Prog σ Lock ε α} :
      s.running t = some (c,r) → r.prog = .release k → Step s (s.put t c ⟨k,r.held,none⟩)
  | deadline {t : ℕ} {c : χ} {r : Running σ Lock ε α} {d : σ → Prop} {k : Prog σ Lock ε α} :
      s.running t = some (c,r) → r.prog = .deadline d k →
      Step s (s.put t c ⟨k,r.held.within d,r.saved⟩)
  | fail {t : ℕ} {c : χ} {r : Running σ Lock ε α} {h : ε → Prog σ Lock ε α} {v : Held σ Lock}
      (e : ε) : s.running t = some (c,r) → r.saved = some (h,v) → Step s (s.put t c ⟨h e,v,none⟩)
  | crash {t : ℕ} {c : χ} {r : Running σ Lock ε α} : s.running t = some (c,r) → Step s (s.drop t)
  | raise {t : ℕ} {c : χ} {r : Running σ Lock ε α} {e : ε} :
      s.running t = some (c,r) → r.prog = .raise e → r.saved = none →
      Step s { s.drop t with log := (c,.error e) :: s.log }
  | commit {t : ℕ} {c : χ} {r : Running σ Lock ε α} {a : α} :
      s.running t = some (c,r) → r.prog = .ret a → r.held.due s.db → ok c a s.db →
      Step s { s.drop t with db := r.held.pending s.db, log := (c,.ok a) :: s.log }

/-- The states of every run from a quiet state over an initial database. -/
inductive Reachable (init : σ → Prop) : State σ Lock χ ε α → Prop
  | init {db : σ} : init db → Reachable init ⟨db,fun _ => none,[]⟩
  | step {s s' : State σ Lock χ ε α} : Reachable init s → Step S ok s s' → Reachable init s'

/-- The states of the runs in which every committed database satisfies `V`. -/
inductive Throughout (V init : σ → Prop) : State σ Lock χ ε α → Prop
  | init {db : σ} : init db → V db → Throughout V init ⟨db,fun _ => none,[]⟩
  | step {s s' : State σ Lock χ ε α} : Throughout V init s → Step S (fun _ _ _ => True) s s' → V s'.db →
      Throughout V init s'

variable {S ok}

/-- A step is one of the restricted system when, as a commit, it meets the restriction. -/
theorem Step.restrict {s s' : State σ Lock χ ε α} (h : Step S (fun _ _ _ => True) s s')
    (hok : ∀ t c r a, s.running t = some (c,r) → r.prog = .ret a → r.held.due s.db →
      s'.db = r.held.pending s.db → ok c a s.db) : Step S ok s s' := by
  cases h with
  | env h => exact .env h
  | start c ht => exact .start c ht
  | stmt ht hp ho hf => exact .stmt ht hp ho hf
  | savepoint ht hp => exact .savepoint ht hp
  | release ht hp => exact .release ht hp
  | deadline ht hp => exact .deadline ht hp
  | fail e ht hv => exact .fail e ht hv
  | crash ht => exact .crash ht
  | raise ht hp hv => exact .raise ht hp hv
  | commit ht hp hdue _ => exact .commit ht hp hdue (hok _ _ _ _ ht hp hdue rfl)

theorem Step.relax {s s' : State σ Lock χ ε α} (h : Step S ok s s') : Step S (fun _ _ _ => True) s s' := by
  cases h with
  | env h => exact .env h
  | start c ht => exact .start c ht
  | stmt ht hp ho hf => exact .stmt ht hp ho hf
  | savepoint ht hp => exact .savepoint ht hp
  | release ht hp => exact .release ht hp
  | deadline ht hp => exact .deadline ht hp
  | fail e ht hv => exact .fail e ht hv
  | crash ht => exact .crash ht
  | raise ht hp hv => exact .raise ht hp hv
  | commit ht hp hdue _ => exact .commit ht hp hdue trivial

/-- A step that logs an outcome is a transaction's last. -/
theorem Step.logged {s s' : State σ Lock χ ε α} (h : Step S ok s s') {c : χ} {out : Except ε α}
    (hlog : s'.log = (c,out) :: s.log) : ∃ t r, s.running t = some (c,r) ∧ s'.running = (s.drop t).running ∧
      ((∃ e, r.prog = .raise e ∧ r.saved = none ∧ out = .error e ∧ s'.db = s.db) ∨
        (∃ a, r.prog = .ret a ∧ r.held.due s.db ∧ out = .ok a ∧ s'.db = r.held.pending s.db)) := by
  cases h with
  | raise ht hp hv =>
    cases hlog
    exact ⟨_,_,ht,rfl,.inl ⟨_,hp,hv,rfl,rfl⟩⟩
  | commit ht hp hdue _ =>
    cases hlog
    exact ⟨_,_,ht,rfl,.inr ⟨_,hp,hdue,rfl,rfl⟩⟩
  | _ => exact absurd hlog.symm (List.cons_ne_self _ _)

namespace State

@[simp] theorem put_db (s : State σ Lock χ ε α) (t c r) : (s.put t c r).db = s.db := rfl
@[simp] theorem put_log (s : State σ Lock χ ε α) (t c r) : (s.put t c r).log = s.log := rfl
@[simp] theorem drop_db (s : State σ Lock χ ε α) (t) : (s.drop t).db = s.db := rfl

theorem put_running (s : State σ Lock χ ε α) (t u : ℕ) (c : χ) (r : Running σ Lock ε α) :
    (s.put t c r).running u = if u = t then some (c,r) else s.running u := by
  simp [put,Function.update_apply]

theorem drop_running (s : State σ Lock χ ε α) (t u : ℕ) :
    (s.drop t).running u = if u = t then none else s.running u := by
  simp [drop,Function.update_apply]

/-- Locks are exclusive, and a savepoint keeps a part of what is held after it. -/
structure Exclusive (s : State σ Lock χ ε α) : Prop where
  disjoint : ∀ {t u ct cu rt ru}, t ≠ u → s.running t = some (ct,rt) →
    s.running u = some (cu,ru) → Disjoint rt.held.locks ru.held.locks
  saved : ∀ {t c r h v}, s.running t = some (c,r) → r.saved = some (h,v) →
    v.locks ⊆ r.held.locks

theorem Exclusive.put {s : State σ Lock χ ε α} (hs : s.Exclusive) {t : ℕ} {c : χ}
    {r : Running σ Lock ε α} (hfree : s.Free t r.held.locks)
    (hsaved : ∀ h v, r.saved = some (h,v) → v.locks ⊆ r.held.locks) :
    (s.put t c r).Exclusive := by
  constructor
  · intro u w cu cw ru rw hne hu hw
    rw [put_running] at hu hw
    split at hu <;> split at hw
    · omega
    · cases hu
      exact hfree _ _ _ (by assumption) hw
    · cases hw
      exact (hfree _ _ _ (by assumption) hu).symm
    · exact hs.disjoint hne hu hw
  · intro u cu ru h v hu hv
    rw [put_running] at hu
    split at hu
    · cases hu
      exact hsaved h v hv
    · exact hs.saved hu hv

theorem Exclusive.drop {s : State σ Lock χ ε α} (hs : s.Exclusive) (t : ℕ) :
    (s.drop t).Exclusive := by
  constructor
  · intro u w cu cw ru rw hne hu hw
    rw [drop_running] at hu hw
    split at hu
    · cases hu
    · split at hw
      · cases hw
      · exact hs.disjoint hne hu hw
  · intro u cu ru h v hu hv
    rw [drop_running] at hu
    split at hu
    · cases hu
    · exact hs.saved hu hv

theorem Exclusive.free {s : State σ Lock χ ε α} (hs : s.Exclusive) {t : ℕ} {c : χ}
    {r : Running σ Lock ε α} (ht : s.running t = some (c,r)) : s.Free t r.held.locks :=
  fun _ _ _ hne hu => hs.disjoint (Ne.symm hne) ht hu

theorem Free.mono {s : State σ Lock χ ε α} {t : ℕ} {K L : Set Lock} (h : s.Free t L) (hk : K ⊆ L) :
    s.Free t K := fun u c r hne hu => (h u c r hne hu).mono_left hk

theorem Free.union {s : State σ Lock χ ε α} {t : ℕ} {K L : Set Lock} (hk : s.Free t K)
    (hl : s.Free t L) : s.Free t (K ∪ L) :=
  fun u c r hne hu => Disjoint.union_left (hk u c r hne hu) (hl u c r hne hu)

end State

theorem Step.exclusive {s s' : State σ Lock χ ε α} (h : Step S ok s s') (hs : s.Exclusive) :
    s'.Exclusive := by
  cases h with
  | env _ => exact ⟨hs.disjoint,hs.saved⟩
  | start c ht =>
    refine hs.put (fun u c r _ _ => ?_) (by simp)
    simp [Held.empty]
  | stmt ht _ _ hfree =>
    exact hs.put ((hs.free ht).union hfree) fun h v hv => (hs.saved ht hv).trans Set.subset_union_left
  | savepoint ht _ =>
    have hfree := hs.free ht
    refine hs.put hfree fun h v hv => ?_
    cases hv
    exact subset_rfl
  | release ht _ =>
    have hfree := hs.free ht
    exact hs.put hfree (by simp)
  | @deadline t c r d k ht _ =>
    have hfree := hs.free ht
    refine hs.put hfree fun h v hv => ?_
    have hsub : v.locks ⊆ r.held.locks := hs.saved ht hv
    exact hsub
  | fail e ht hv => exact hs.put ((hs.free ht).mono (hs.saved ht hv)) (by simp)
  | crash ht => exact hs.drop _
  | raise ht _ _ => exact ⟨(hs.drop _).disjoint,(hs.drop _).saved⟩
  | commit ht _ _ _ => exact ⟨(hs.drop _).disjoint,(hs.drop _).saved⟩

theorem Reachable.exclusive {init : σ → Prop} {s : State σ Lock χ ε α}
    (h : Reachable S ok init s) : s.Exclusive := by
  induction h with
  | init _ => exact ⟨by simp,by simp⟩
  | step _ hstep ih => exact hstep.exclusive ih

/-- Of two open transactions, one at most holds a given lock. -/
theorem Reachable.holder_unique {init : σ → Prop} {s : State σ Lock χ ε α}
    (h : Reachable S ok init s) {t u : ℕ} {ct cu : χ} {rt ru : Running σ Lock ε α} {l : Lock}
    (ht : s.running t = some (ct,rt)) (hu : s.running u = some (cu,ru))
    (hlt : l ∈ rt.held.locks) (hlu : l ∈ ru.held.locks) : t = u := by
  by_contra hne
  exact Set.disjoint_left.mp (h.exclusive.disjoint hne ht hu) hlt hlu

end ReadCommitted
