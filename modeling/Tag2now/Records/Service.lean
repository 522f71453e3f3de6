import Tag2now.Records.Store
import Tag2now.Transactions.RelyGuarantee

/-! # The consumer of the event queue

`processNext` as one transaction with its savepoint. The room of a match comes from
the history module over a session of its own, so it is a relation here: whatever
that read may answer for an event. The environment queues new events, as the capture
of saves does.
-/
namespace Tag2now.Records
open History ReadCommitted

variable (resolves : MatchEvent → Option RankRoom → Prop)

/-- What one call found and did; the caller is told whether there was anything to do. -/
inductive Processed
  | idle
  | finished (event : ℕ)
  | failed (event : ℕ)
  deriving DecidableEq

def Processed.answer : Processed → Bool
  | .idle => false
  | .finished _ => true
  | .failed _ => true

def rankRoom (event : MatchEvent) : Program (Option RankRoom) := .choose fun _ room => resolves event room

/-- The second player's event fills its side of the match the first one recorded. -/
def resolve (event : MatchEvent) : Program Unit := do
  let room ← rankRoom resolves event
  let side := sideOf room event.npid
  let winner := winner side event.outcome
  match room with
  | none => addMatch event none side winner
  | some r =>
    lockRoom r.roomSnapshotId
    if ← fillSide event r side winner then pure ()
    else addMatch event (some r) side winner

/-- A failure rolls back to the savepoint, so the event stays locked while its
retry is recorded in the same transaction. -/
def attempt (event : MatchEvent) (now : ℤ) : Program Processed :=
  .nested (do
    resolve resolves event
    finishEvent event.id
    pure (.finished event.id)) fun error => do
      failEvent event error now
      pure (.failed event.id)

def processNext : Program Processed := do
  let now ← .choose fun _ _ => True
  match ← claimEvent now with
  | none => pure .idle
  | some event => attempt resolves event now

/-- A row as `add_event` inserts it: pending, not yet attempted, one for each save. -/
def Queued (db : Store) (row : MatchEventRow) : Prop :=
  db.events.get? row.id = none ∧ row.status = .pending ∧ row.attempts = 0 ∧
    ∀ other ∈ db.events.rows, other.npid = row.npid → other.dataId ≠ row.dataId

def addEvent (row : MatchEventRow) (db : Store) : Store := { db with events := db.events.insert row }

def queue : System Store Lock Unit String Processed where
  body _ := processNext resolves
  env s t := ∃ row, Queued s row ∧ t = addEvent row s

end Tag2now.Records
