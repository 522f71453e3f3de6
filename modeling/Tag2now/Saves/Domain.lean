import Tag2now.Collections.Ordered
import Tag2now.Collections.Places
import Tag2now.Shared.Basics

/-! # Who stands where at their current rank, and who plays at a rank now -/
namespace Tag2now.Saves
open Collections

structure RankedChar where
  id : ℕ
  character : String
  rank : ℕ
  rankName : String
  tier : String
  points : ℕ
  streak : ℕ
  wins : ℕ
  losses : ℕ
  deriving DecidableEq

structure PlayerRanks where
  npid : String
  savedUtc : ℤ
  accountRank : ℕ
  chars : List RankedChar
  deriving DecidableEq

structure Holder where
  npid : String
  savedUtc : ℤ
  accountRank : ℕ
  /-- The player's place on the current-rank leaderboard. -/
  place : ℕ
  /-- Ids of the characters played at the rank this holder is listed under. -/
  chars : List ℕ
  deriving DecidableEq

structure BoardEntry where
  rank : ℕ
  username : String
  savedAt : ℤ
  accountRank : ℕ
  chars : List RankedChar
  deriving DecidableEq

/-- The floor has raised every save to 1st dan, so no one plays below it. -/
def holderRanks : List ℕ := List.range' 10 33

/-- What a lookup raises where there is nothing under the key. -/
inductive Missing
  | keyError
  deriving DecidableEq

def savedWithin {α : Type} (savedUtc : α → ℤ) (players : List α) (days : Option ℕ) (now : ℤ) : List α :=
  match days with
  | none => players
  | some days => players.filter fun p => now - days * day ≤ savedUtc p

/-- A stable sort keeps the lower id on a tie. -/
def topTwo (chars : List RankedChar) : List RankedChar :=
  (sortedBy (fun c : RankedChar => toLex (-(c.rank : ℤ),-(c.points : ℤ))) chars).take 2

/-- The floor gives every character a rank; only one played there makes a holder. -/
def holdsItsRank (char : RankedChar) : Bool := (char.wins ≠ 0 ∨ char.losses ≠ 0) ∧ char.rank ∈ holderRanks

def playedIdsByRank (chars : List RankedChar) : Ordered ℕ (List ℕ) :=
  (chars.filter holdsItsRank).foldl (fun played c => played.set c.rank ((played.get? c.rank).getD [] ++ [c.id])) .empty

/-- One more holder at a rank. -/
def addHolder (places : Ordered String ℕ) (player : PlayerRanks) (byRank : Ordered ℕ (List Holder)) (rank : ℕ)
    (ids : List ℕ) : Except Missing (Ordered ℕ (List Holder)) := do
  let holders ← (byRank.get? rank).elim (throw .keyError) pure
  let place ← (places.get? player.npid).elim (throw .keyError) pure
  pure (byRank.set rank (holders ++ [⟨player.npid,player.savedUtc,player.accountRank,place,ids⟩]))

/-- Every rank a player plays a character at lists them, an empty rank included. -/
def holdersByRank (players : List PlayerRanks) (places : Ordered String ℕ) :
    Except Missing (Ordered ℕ (List Holder)) :=
  players.foldlM (fun byRank player =>
    (playedIdsByRank player.chars).entries.foldlM (fun byRank e => addHolder places player byRank e.1 e.2) byRank)
    (.ofList (holderRanks.map fun rank => (rank,[])))

/-- A character's rank and points; a character a player does not have is below any. -/
def standingOf : Option RankedChar → ℤ × ℤ
  | none => (-1,-1)
  | some char => (char.rank,char.points)

/-- Sorts ascending, so higher ranks and points come first. -/
def standing (player : PlayerRanks) : ℤ ×ₗ ℤ ×ₗ ℤ ×ₗ ℤ :=
  let first := standingOf player.chars[0]?
  let second := standingOf player.chars[1]?
  toLex (-first.1,toLex (-second.1,toLex (-first.2,-second.2)))

def boardEntry (place : ℕ) (player : PlayerRanks) : BoardEntry :=
  ⟨place,player.npid,player.savedUtc,player.accountRank,player.chars⟩

/-- Players with a ranked character, best first; equal standings share a place and are listed by name. -/
def currentRankBoard (casefold : String → String) (players : List PlayerRanks) : List BoardEntry :=
  (placed standing (sortedBy (fun p => toLex (standing p,casefold p.npid))
    (players.filter fun p => p.chars ≠ []))).map fun e => boardEntry e.1 e.2

end Tag2now.Saves
