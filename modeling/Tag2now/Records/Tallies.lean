import Tag2now.Caching.Misses
import Tag2now.Shared.Basics

/-! # The cached tallies of recorded matches -/
namespace Tag2now.Records
open CacheMisses

structure WeeklyPlayer where
  npid : String
  onlineName : String
  matchCount : ℕ
  wins : ℕ
  losses : ℕ
  deriving DecidableEq

structure OpponentRecord where
  npid : String
  onlineName : String
  matchCount : ℕ
  wins : ℕ
  losses : ℕ
  deriving DecidableEq

def week : ℤ := 7 * day

/-- The player card has room for four. -/
def opponentLimit : ℕ := 4

/-- The two tallies as the repository answers them. What it raises is its own. -/
structure TallyRepository (ε : Type) where
  weeklyTopPlayers : (since : ℤ) → (limit : ℕ) → (excludedNpids : List String) → Except ε (List WeeklyPlayer)
  frequentOpponents : (npid : String) → (since : ℤ) → (limit : ℕ) → Except ε (List OpponentRecord)

/-- `records:weekly_top:..` and `records:opponents:..`. -/
inductive Key
  | weeklyTop (limit : ℕ)
  | opponents (npid : String) (days : ℕ)
  deriving DecidableEq

abbrev Value : Key → Type
  | .weeklyTop _ => List WeeklyPlayer
  | .opponents _ _ => List OpponentRecord

section
variable {ε : Type} (settings : Settings) (repo : TallyRepository ε)

def uncachedWeeklyTop (now : ℤ) (limit : ℕ) : Except ε (List WeeklyPlayer) :=
  repo.weeklyTopPlayers (now - week) limit settings.rankingExcludedNpids

/-- An empty list counts as a miss. -/
def weeklyTopPlayers (now : ℤ) (limit : ℕ) : Call Value ε (List WeeklyPlayer) :=
  readThrough (Key.weeklyTop limit) (fun cached => !cached.isEmpty) (uncachedWeeklyTop settings repo now limit)

def uncachedOpponents (now : ℤ) (npid : String) (days : ℕ) : Except ε (List OpponentRecord) :=
  repo.frequentOpponents npid (now - days * day) opponentLimit

def frequentOpponents (now : ℤ) (npid : String) (days : ℕ) : Call Value ε (List OpponentRecord) :=
  readThrough (Key.opponents npid days) (fun cached => !cached.isEmpty) (uncachedOpponents repo now npid days)

end

end Tag2now.Records
