import Tag2now.History.Snapshots

/-! # Sides, winners and outcomes of a match -/
namespace Tag2now.Records
open History

inductive MatchOutcome
  | win
  | loss
  deriving DecidableEq

/-- 1P or 2P: RPCN's room slot, or 1P for the only player a roomless match has. -/
inductive Side
  | p1
  | p2
  deriving DecidableEq

def Side.other : Side → Side
  | .p1 => .p2
  | .p2 => .p1

inductive EventStatus
  | pending
  | done
  | dead
  deriving DecidableEq

structure MatchEvent where
  id : ℕ
  npid : String
  outcome : MatchOutcome
  chars : List ℤ
  savedAt : ℤ
  ranks : Option (List (Option ℤ))
  attempts : ℕ
  deriving DecidableEq

/-- With no room there is no slot to read, and the player whose save was seen is 1P. -/
def sideOf (room : Option RankRoom) (npid : String) : Side :=
  match room with
  | none => .p1
  | some r => if r.user1Npid = npid then .p1 else .p2

def winner (side : Side) (outcome : MatchOutcome) : Side :=
  match outcome with
  | .win => side
  | .loss => side.other

def outcomeOf (side winner : Side) : MatchOutcome := if side = winner then .win else .loss

@[simp] theorem Side.other_ne (s : Side) : s.other ≠ s := by cases s <;> decide
@[simp] theorem Side.ne_other (s : Side) : s ≠ s.other := by cases s <;> decide
@[simp] theorem Side.other_other (s : Side) : s.other.other = s := by cases s <;> rfl

/-- A match's winner gives the side that reported it the outcome it reported. -/
theorem outcomeOf_winner (side : Side) (outcome : MatchOutcome) :
    outcomeOf side (winner side outcome) = outcome := by
  cases outcome <;> simp [outcomeOf,winner]

theorem winner_outcomeOf (side w : Side) : winner side (outcomeOf side w) = w := by
  cases side <;> cases w <;> rfl

end Tag2now.Records
