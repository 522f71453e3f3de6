import Mathlib.Data.List.FinRange
import Tag2now.Saves.Domain

/-! # The rank event: what each player must reach, and who is there now

Judged from the saves when the event began and the saves now.
-/
namespace Tag2now.Event
open Collections Saves

/-- 2026-10-28 19:00 in Seoul. -/
def eventStart : ℤ := 1793181600 * second

/-- Prizes go to this many players; the rest of the board stands behind them. -/
def capacity : ℕ := 20

def firstDan : ℕ := 10
def secondDan : ℕ := 11
def thirdDan : ℕ := 12
def disciple : ℕ := 13
def master : ℕ := 15
def brawler : ℕ := 17
def berserker : ℕ := 20
def warrior : ℕ := 21
def pugilist : ℕ := 24
def vanquisher : ℕ := 25
def subSteps : ℕ := 3

abbrev CharId := Fin characterCount

/-- Kuma and Panda, and Xiaoyu and Miharu, save apart but count as one character. -/
def sameCharacter (id : CharId) : Option CharId :=
  if id = 0x0B then some 0x2B
  else if id = 0x2B then some 0x0B
  else if id = 0x07 then some 0x30
  else if id = 0x30 then some 0x07
  else none

def pugilistStart : List String := ["unnamed","six_miri","daddyking_"]

structure CharState where
  rank : ℕ
  wins : ℕ
  losses : ℕ
  deriving DecidableEq

structure Baseline where
  npid : String
  /-- Rank and record by character id when the event began. -/
  chars : CharId → CharState
  /-- Never drops, so it is the highest rank ever reached. -/
  accountRank : ℕ
  newPlayer : Bool

namespace Baseline
variable (baseline : Baseline)

def topRank : ℕ := ((List.finRange characterCount).map fun id => (baseline.chars id).rank).foldl max 0

def bestRank : ℕ := max baseline.accountRank baseline.topRank

def mainSteps : ℕ :=
  let steps := if vanquisher ≤ baseline.topRank then 1 else 2
  if baseline.bestRank ≠ baseline.topRank then steps + 1 else steps

/-- Going by the highest rank ever reached, not the current one. -/
def subFloor (casefold : String → String) : ℕ :=
  let best := baseline.bestRank
  if vanquisher ≤ best then if casefold baseline.npid ∈ pugilistStart then pugilist else berserker
  else if warrior ≤ best then master
  else if brawler ≤ best then thirdDan
  else if disciple ≤ best then secondDan
  else firstDan

/-- The organiser judges number-only players by hand. -/
def numberOnly : Bool := baseline.bestRank ≤ thirdDan

end Baseline

structure Slot where
  charId : CharId
  main : Bool
  start : ℕ
  steps : ℕ
  rank : ℕ
  /-- The record changed: only a game earns a rank. -/
  played : Bool
  deriving DecidableEq

namespace Slot

def target (slot : Slot) : ℕ := slot.start + slot.steps
def gain (slot : Slot) : ℤ := slot.rank - slot.start
def achieved (slot : Slot) : Bool := slot.played && slot.target ≤ slot.rank

end Slot

structure Standing where
  baseline : Baseline
  slots : List Slot

/-- Of two equal gains the first stays. -/
def furthest (best : Option Slot) (slot : Slot) : Option Slot :=
  match best with
  | none => some slot
  | some b => if b.gain < slot.gain then some slot else some b

/-- The first of the achieved slots that gained the most. -/
def Standing.best (standing : Standing) : Option Slot := (standing.slots.filter Slot.achieved).foldl furthest none

inductive JudgeFault
  | indexError
  deriving DecidableEq

section
variable (casefold : String → String)

def slotOf (baseline : Baseline) (charId : CharId) (now : CharState) : Slot :=
  let before := baseline.chars charId
  let rank := match sameCharacter charId with
    | none => before.rank
    | some other => max before.rank (baseline.chars other).rank
  let main : Bool := rank = baseline.topRank
  { charId := charId
    main := main
    start := if main then rank else max rank (baseline.subFloor casefold)
    steps := if main then baseline.mainSteps else subSteps
    rank := now.rank
    played := (now.wins,now.losses) ≠ (before.wins,before.losses) }

/-- One character of the save over what is known. -/
def nowWith (now : CharId → CharState) (char : RankedChar) : Except JudgeFault (CharId → CharState) :=
  if h : char.id < characterCount then .ok (Function.update now ⟨char.id,h⟩ ⟨char.rank,char.wins,char.losses⟩)
  else .error .indexError

/-- The save's list leaves out a character with no rank and no record. -/
def judge (baseline : Baseline) (chars : List RankedChar) : Except JudgeFault Standing := do
  let now ← chars.foldlM nowWith baseline.chars
  pure ⟨baseline,(List.finRange characterCount).map fun id => slotOf casefold baseline id (now id)⟩

/-- A standing with an achieved slot. -/
structure Achiever where
  standing : Standing
  best : Slot
  best_eq : standing.best = some best

def achiever? (standing : Standing) : Option Achiever :=
  match h : standing.best with
  | none => none
  | some best => some ⟨standing,best,h⟩

/-- Places and players, furthest climb first; equal climbs share a place. -/
def achievers (standings : List Standing) : List (ℕ × Achiever) :=
  placed (fun s : Achiever => -s.best.gain) (sortedBy
    (fun s : Achiever => toLex (-s.best.gain,casefold s.standing.baseline.npid)) (standings.filterMap achiever?))

end

end Tag2now.Event
