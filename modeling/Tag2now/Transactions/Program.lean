import Mathlib.Data.Set.Basic
import Mathlib.Logic.Function.Basic

/-! # Transactions as programs over statements

A database transaction is written as a program whose steps are single SQL
statements. A statement reads the transaction's own view, answers a value, takes
locks that are kept until the transaction ends, and adds a write to what the
transaction will commit. A savepoint names the program that takes over when
anything fails before its release. The programs say nothing about interleaving;
that is the business of the system that runs them.
-/
namespace ReadCommitted

/-- One possible execution of a statement. -/
structure Outcome (σ Lock β : Type) where
  result : β
  locks : Set Lock
  write : σ → σ

/-- A statement relates the view it runs on to its possible executions. -/
abbrev Stmt (σ Lock β : Type) := σ → Outcome σ Lock β → Prop

inductive Prog (σ Lock ε α : Type) : Type 1 where
  | ret (a : α)
  | raise (e : ε)
  | stmt {β : Type} (s : Stmt σ Lock β) (k : β → Prog σ Lock ε α)
  | savepoint (handler : ε → Prog σ Lock ε α) (k : Prog σ Lock ε α)
  | release (k : Prog σ Lock ε α)
  /-- The transaction commits only while `d` holds of the committed database. -/
  | deadline (d : σ → Prop) (k : Prog σ Lock ε α)

namespace Prog
variable {σ Lock ε α β γ : Type}

def bind : Prog σ Lock ε α → (α → Prog σ Lock ε β) → Prog σ Lock ε β
  | .ret a, f => f a
  | .raise e, _ => .raise e
  | .stmt s k, f => .stmt s (fun b => (k b).bind f)
  | .savepoint h k, f => .savepoint (fun e => (h e).bind f) (k.bind f)
  | .release k, f => .release (k.bind f)
  | .deadline d k, f => .deadline d (k.bind f)

instance : Monad (Prog σ Lock ε) where
  pure := .ret
  bind := bind

@[simp] theorem ret_bind (a : α) (f : α → Prog σ Lock ε β) : (Prog.ret a >>= f) = f a := rfl
@[simp] theorem pure_bind (a : α) (f : α → Prog σ Lock ε β) :
    ((pure a : Prog σ Lock ε α) >>= f) = f a := rfl
@[simp] theorem raise_bind (e : ε) (f : α → Prog σ Lock ε β) :
    ((Prog.raise e : Prog σ Lock ε α) >>= f) = .raise e := rfl
@[simp] theorem stmt_bind (s : Stmt σ Lock γ) (k : γ → Prog σ Lock ε α) (f : α → Prog σ Lock ε β) :
    (Prog.stmt s k >>= f) = .stmt s (fun b => k b >>= f) := rfl
@[simp] theorem savepoint_bind (h : ε → Prog σ Lock ε α) (k : Prog σ Lock ε α)
    (f : α → Prog σ Lock ε β) :
    (Prog.savepoint h k >>= f) = .savepoint (fun e => h e >>= f) (k >>= f) := rfl
@[simp] theorem release_bind (k : Prog σ Lock ε α) (f : α → Prog σ Lock ε β) :
    (Prog.release k >>= f) = .release (k >>= f) := rfl
@[simp] theorem deadline_bind (d : σ → Prop) (k : Prog σ Lock ε α) (f : α → Prog σ Lock ε β) :
    (Prog.deadline d k >>= f) = .deadline d (k >>= f) := rfl
@[simp] theorem pure_eq (a : α) : (pure a : Prog σ Lock ε α) = .ret a := rfl

theorem bind_assoc (p : Prog σ Lock ε α) (f : α → Prog σ Lock ε β) (g : β → Prog σ Lock ε γ) :
    (p >>= f) >>= g = p >>= fun a => f a >>= g := by
  induction p with
  | ret a => rfl
  | raise e => rfl
  | stmt s k ih => simpa only [stmt_bind, stmt.injEq, heq_eq_eq, true_and] using funext ih
  | savepoint h k ihh ihk =>
    simp only [savepoint_bind, savepoint.injEq]
    exact ⟨funext ihh,ihk⟩
  | release k ih => simpa only [release_bind, release.injEq] using ih
  | deadline d k ih => simpa only [deadline_bind, deadline.injEq, true_and] using ih

@[simp] theorem bind_ret (p : Prog σ Lock ε α) : p >>= .ret = p := by
  induction p with
  | ret a => rfl
  | raise e => rfl
  | stmt s k ih => simpa only [stmt_bind, stmt.injEq, heq_eq_eq, true_and] using funext ih
  | savepoint h k ihh ihk =>
    simp only [savepoint_bind, savepoint.injEq]
    exact ⟨funext ihh,ihk⟩
  | release k ih => simpa only [release_bind, release.injEq] using ih
  | deadline d k ih => simpa only [deadline_bind, deadline.injEq, true_and] using ih

/-- Run one statement and answer its result. -/
def perform (s : Stmt σ Lock β) : Prog σ Lock ε β := .stmt s .ret

def query (f : σ → β) : Prog σ Lock ε β := perform fun v o => o = ⟨f v,∅,id⟩

def choose (p : σ → β → Prop) : Prog σ Lock ε β := perform fun v o => ∃ b, p v b ∧ o = ⟨b,∅,id⟩

/-- A statement that reads the view, takes locks and writes, all decided by the view. -/
def execute (f : σ → β) (locks : σ → Set Lock) (write : σ → σ → σ) : Prog σ Lock ε β :=
  perform fun v o => o = ⟨f v,locks v,write v⟩

/-- `body` under a savepoint: a failure in it leaves no write and no lock of its
own behind, and `handler` runs in the same transaction. -/
def nested (body : Prog σ Lock ε α) (handler : ε → Prog σ Lock ε α) : Prog σ Lock ε α :=
  .savepoint handler (body >>= fun a => .release (.ret a))

/-- Raise unless `c` holds. -/
def ensure (c : Prop) [Decidable c] (e : ε) : Prog σ Lock ε Unit := if c then .ret () else .raise e

/-- The exception of a pure check, raised inside the transaction. -/
def ofExcept : Except ε α → Prog σ Lock ε α
  | .ok a => .ret a
  | .error e => .raise e

@[simp] theorem ofExcept_ok (a : α) : (ofExcept (.ok a) : Prog σ Lock ε α) = .ret a := rfl
@[simp] theorem ofExcept_error (e : ε) : (ofExcept (.error e) : Prog σ Lock ε α) = .raise e := rfl

end Prog

/-! ## Programs on a part -/

/-- A part of a larger database, with its locks among the larger one's. -/
structure Part (σ τ Lock M : Type) where
  get : τ → σ
  modify : (σ → σ) → τ → τ
  lock : Lock → M

section
variable {σ τ Lock M ε α α' β : Type} (part : Part σ τ Lock M)

def Part.stmt (st : Stmt σ Lock β) : Stmt τ M β := fun v o =>
  ∃ o', st (part.get v) o' ∧ o = ⟨o'.result,part.lock '' o'.locks,part.modify o'.write⟩

/-- A program run on the part. -/
def Prog.on (answer : α → α') : Prog σ Lock ε α → Prog τ M ε α'
  | .ret a => .ret (answer a)
  | .raise e => .raise e
  | .stmt st k => .stmt (part.stmt st) fun b => (k b).on answer
  | .savepoint f k => .savepoint (fun e => (f e).on answer) (k.on answer)
  | .release k => .release (k.on answer)
  | .deadline d k => .deadline (fun t => d (part.get t)) (k.on answer)

end

end ReadCommitted
