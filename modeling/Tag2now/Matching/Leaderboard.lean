import Mathlib.Data.Int.Notation
import Tag2now.Caching.Misses
import Tag2now.Shared.Basics

/-! # The game server's leaderboard

Fetched once at its full size without the excluded accounts, and sliced for each request.
-/
namespace Tag2now.Matching
open CacheMisses

structure RankInfo where
  id : ℕ
  name : String
  tier : String
  deriving DecidableEq

structure CharInfo where
  charId : ℕ
  rankInfo : RankInfo
  wins : ℕ
  losses : ℕ
  name : String
  deriving DecidableEq

structure GameInfo where
  mainCharInfo : CharInfo
  subCharInfo : CharInfo
  deriving DecidableEq

structure LeaderboardEntry where
  rank : ℤ
  npId : String
  onlineName : String
  score : ℤ
  pcId : ℤ
  recordDate : ℕ
  hasGameData : Bool
  comment : String
  playerInfo : Option GameInfo
  deriving DecidableEq

structure LeaderboardResult where
  totalRecords : ℤ
  lastSortDate : ℕ
  entries : List LeaderboardEntry
  deriving DecidableEq

/-- The leaderboard is fetched once at this size. -/
def leaderboardCacheSize : ℕ := 500

/-- What the game server answers for a board, at a size. -/
abbrev GetLeaderboard (ε : Type) := (comId : String) → (boardId : ℤ) → (numRanks : ℕ) → Except ε LeaderboardResult

section
variable {ε : Type} (casefold : String → String) (settings : Settings) (fetch : GetLeaderboard ε)

def excludedRanks (entries : List LeaderboardEntry) : List ℤ :=
  (entries.filter fun e => settings.isRankingExcluded casefold e.npId).map LeaderboardEntry.rank

/-- Those below an excluded account move up past it, and ties stay tied. -/
def movedUp (excluded : List ℤ) (entry : LeaderboardEntry) : LeaderboardEntry :=
  { entry with rank := entry.rank - excluded.countP (· < entry.rank) }

def withoutExcluded (lb : LeaderboardResult) : LeaderboardResult :=
  let excluded := excludedRanks casefold settings lb.entries
  { lb with
    totalRecords := lb.totalRecords - excluded.length
    entries := (lb.entries.filter fun e => !settings.isRankingExcluded casefold e.npId).map (movedUp excluded) }

def leaderboardCacheKey (comId : String) (boardId : ℤ) : String :=
  "ttt2:leaderboard:" ++ comId ++ ":" ++ toString boardId

def uncachedFullLeaderboard (comId : String) (boardId : ℤ) : Except ε LeaderboardResult :=
  (fetch comId boardId leaderboardCacheSize).map (withoutExcluded casefold settings)

def getFullLeaderboard (comId : String) (boardId : ℤ) :
    Call (fun _ : String => LeaderboardResult) ε LeaderboardResult :=
  readThrough (leaderboardCacheKey comId boardId) (fun _ => true)
    (uncachedFullLeaderboard casefold settings fetch comId boardId)

def topRanks (numRanks : ℕ) (full : LeaderboardResult) : LeaderboardResult :=
  { full with entries := full.entries.take numRanks }

def getLeaderboard (comId : String) (boardId : ℤ) (numRanks : ℕ) :
    Call (fun _ : String => LeaderboardResult) ε LeaderboardResult :=
  topRanks numRanks <$> getFullLeaderboard casefold settings fetch comId boardId

def uncachedLeaderboard (comId : String) (boardId : ℤ) (numRanks : ℕ) : Except ε LeaderboardResult :=
  topRanks numRanks <$> uncachedFullLeaderboard casefold settings fetch comId boardId

end

end Tag2now.Matching
