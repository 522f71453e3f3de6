import Tag2now.Transactions.Program
import Tag2now.Transactions.Table

/-! # Running a write at most once per key

The table of idempotency keys, the two statements its store runs and the service over
them. The keys are one table of a larger database, so the programs take how to reach
it, how its entries are locked and how its errors are raised. An answer carries with
it whether this call wrote it; the caller sees the answer alone.
-/
namespace Tag2now.Idempotency
open ReadCommitted

structure KeyRow (ρ : Type) where
  subject : String
  key : String
  fingerprint : String
  response : Option ρ
  deriving DecidableEq

def KeyRow.owner {ρ : Type} (row : KeyRow ρ) : String × String := (row.subject,row.key)

abbrev KeyTable (ρ : Type) := Table (@KeyRow.owner ρ)

inductive KeyError
  /-- The key was already used for a different request. -/
  | reused
  /-- `one()` found no row where the insert had met one. -/
  | missing
  deriving DecidableEq

def KeyError.detail : KeyError → String
  | .reused => "이미 다른 요청에 쓰인 요청 키입니다. 새로고침 후 다시 시도해 주세요."
  | .missing => "No row was found when one was required"

/-- The table of keys inside a database. -/
structure KeyStore (σ Lock ε ρ : Type) where
  get : σ → KeyTable ρ
  put : KeyTable ρ → σ → σ
  lock : String × String → Lock
  raised : KeyError → ε
  get_put : ∀ t s, get (put t s) = t

variable {σ Lock ε ρ κ : Type} (S : KeyStore σ Lock ε ρ)

namespace KeyStore

def lookup (db : σ) (owner : String × String) : Option (KeyRow ρ) := (S.get db).get? owner

def insert (row : KeyRow ρ) (db : σ) : σ := S.put ((S.get db).insert row) db

def respond (owner : String × String) (response : ρ) (db : σ) : σ :=
  S.put ((S.get db).modify owner (fun row => { row with response := some response }) fun _ => rfl) db

variable {S}

theorem lookup_insert {row : KeyRow ρ} {db : σ} (h : S.lookup db row.owner = none)
    (o : String × String) : S.lookup (S.insert row db) o = if o = row.owner then some row else S.lookup db o := by
  unfold lookup insert
  rw [S.get_put]
  exact Table.get?_insert h o

theorem lookup_respond (owner : String × String) (response : ρ) (db : σ) (o : String × String) :
    S.lookup (S.respond owner response db) o = if o = owner then
      (S.lookup db o).map (fun row => { row with response := some response }) else S.lookup db o := by
  unfold lookup respond
  rw [S.get_put]
  exact Table.get?_modify _ _ _ _

end KeyStore

/-! A row that is written only where there was none, under its lock. -/

section WrittenOnce
variable {β : Type} {before after : Option β} {L : Set Lock} {p : Prop}

theorem writtenOnce_kept {row : β} (h : after = before ∨ (before = none ∧ p)) (hrow : before = some row) :
    after = some row := by
  rcases h with hsame | ⟨hnone,_⟩
  · exact hsame.trans hrow
  · rw [hnone] at hrow
    cases hrow

/-- Whoever holds the lock finds no row as long as they write none. -/
theorem writtenOnce_absent {lock : Lock} (h : after = before ∨ (before = none ∧ lock ∈ L ∧ p)) (hlock : lock ∉ L)
    (hnone : before = none) : after = none := by
  rcases h with hsame | ⟨_,hwritten,_⟩
  · exact hsame.trans hnone
  · exact absurd hwritten hlock

end WrittenOnce

/-- Take the key for this transaction, or return the answer it already has. -/
def claim (subject key fingerprint : String) : Prog σ Lock ε (Option ρ) := do
  -- a concurrent duplicate waits for the lock of the uncommitted entry, then conflicts with
  -- it once it commits, or inserts if it rolled back
  let claimed ← .execute (fun db => (S.lookup db (subject,key)).isNone)
    (fun db => if (S.lookup db (subject,key)).isNone then {S.lock (subject,key)} else ∅)
    (fun db => if (S.lookup db (subject,key)).isNone then S.insert ⟨subject,key,fingerprint,none⟩ else id)
  if claimed then pure none
  else
    match ← .query fun db => S.lookup db (subject,key) with
    | none => .raise (S.raised .missing)
    | some stored =>
      if stored.fingerprint = fingerprint then pure stored.response else .raise (S.raised .reused)

/-- Keep the answer, in the same transaction that claimed the key. -/
def complete (subject key : String) (response : ρ) : Prog σ Lock ε Unit :=
  .execute (fun _ => ()) (fun _ => {S.lock (subject,key)}) fun _ => S.respond (subject,key) response

/-- An answer, and whether this call wrote it. -/
structure Once (ρ : Type) where
  answer : ρ
  wrote : Bool
  deriving DecidableEq

/-- The write's answer: the first time, and every retry after. -/
def runOnce (fingerprint : String → κ → String) (subject key scope : String) (request : κ)
    (write : Prog σ Lock ε ρ) : Prog σ Lock ε (Once ρ) := do
  match ← claim S subject key (fingerprint scope request) with
  | some stored => pure ⟨stored,false⟩
  | none =>
    let answer ← write
    complete S subject key answer
    pure ⟨answer,true⟩

end Tag2now.Idempotency
