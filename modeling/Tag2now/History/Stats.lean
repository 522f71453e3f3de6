import Mathlib.Data.Rat.Defs
import Tag2now.Caching.Misses

/-! # The cached statistics -/
namespace Tag2now.History
open CacheMisses

/-- Average and peak player counts for one hour of the clock in Seoul. -/
structure HourlyActivity where
  hour : ℕ
  avgPlayers : ℚ
  peakPlayers : ℕ
  deriving DecidableEq

structure DailySummary where
  date : String
  peakPlayers : Option ℕ
  avgPlayers : Option ℚ
  peakRooms : Option ℕ
  uniquePlayers : ℕ
  deriving DecidableEq

structure PlayerStats where
  npid : String
  daysActive : ℕ
  timesSeen : ℕ
  firstSeen : Option ℤ
  lastSeen : Option ℤ
  roomTypeCounts : List (String × ℕ)
  activeHours : List ℕ
  deriving DecidableEq

/-- The statistics as the repository answers them. What it raises is its own. -/
structure StatsRepository (ε : Type) where
  getHourlyActivity : (days : ℕ) → Except ε (List HourlyActivity)
  getDailySummary : (days : ℕ) → Except ε (List DailySummary)
  getPlayerStats : (npid : String) → (days : ℕ) → Except ε PlayerStats

/-- `history:hourly:..`, `history:daily:..` and `history:player_stats:..`. -/
inductive Key
  | hourly (days : ℕ)
  | daily (days : ℕ)
  | playerStats (npid : String) (days : ℕ)
  deriving DecidableEq

abbrev Value : Key → Type
  | .hourly _ => List HourlyActivity
  | .daily _ => List DailySummary
  | .playerStats _ _ => PlayerStats

section
variable {ε : Type} (repo : StatsRepository ε)

/-- An empty list counts as a miss. -/
def getHourlyActivity (days : ℕ) : Call Value ε (List HourlyActivity) :=
  readThrough (Key.hourly days) (fun cached => !cached.isEmpty) (repo.getHourlyActivity days)

def getDailySummary (days : ℕ) : Call Value ε (List DailySummary) :=
  readThrough (Key.daily days) (fun cached => !cached.isEmpty) (repo.getDailySummary days)

def getPlayerStats (npid : String) (days : ℕ) : Call Value ε PlayerStats :=
  readThrough (Key.playerStats npid days) (fun _ => true) (repo.getPlayerStats npid days)

end

end Tag2now.History
