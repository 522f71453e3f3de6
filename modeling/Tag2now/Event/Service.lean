import Tag2now.Caching.Misses
import Tag2now.Event.Domain
import Tag2now.Saves.Service

/-! # The rank event's board and its players

One pass over every save answers the board and every player, and all of the answers are
written to the cache together. The board is answered from what the pass computed; a player
is read back from the cache, so a player is answered null when the write of their entry or
the second read is lost.
-/
namespace Tag2now.Event
open Collections CacheMisses Saves

inductive EventError (ε : Type)
  | eventClosed (message : String)
  | eventPlayerNotFound (message : String)
  | indexError
  | server (e : ε)
  deriving DecidableEq

structure RankOut where
  rank : ℕ
  name : String
  tier : String
  deriving DecidableEq

structure CharOut where
  id : ℕ
  character : String
  deriving DecidableEq

structure AchieverOut where
  place : ℕ
  username : String
  gain : ℤ
  main : Bool
  char : CharOut
  fromRank : RankOut
  toRank : RankOut
  newPlayer : Bool
  numberOnly : Bool
  deriving DecidableEq

structure SlotOut where
  char : CharOut
  main : Bool
  start : RankOut
  target : RankOut
  rank : RankOut
  achieved : Bool
  deriving DecidableEq

structure PlayerOut where
  username : String
  topRank : RankOut
  bestRank : RankOut
  mainSteps : ℕ
  subSteps : ℕ
  subFloor : RankOut
  achieved : Bool
  place : Option ℕ
  newPlayer : Bool
  numberOnly : Bool
  slots : List SlotOut
  deriving DecidableEq

structure Board where
  startAt : ℤ
  endAt : Option ℤ
  ended : Bool
  capacity : ℕ
  achievers : List AchieverOut
  deriving DecidableEq

/-- A code past the last rank is named as the last rank is. -/
def rankOut (code : ℕ) : RankOut :=
  let rank := tekkenRanks.get ⟨min code maxRank,Nat.lt_succ_of_le (Nat.min_le_right ..)⟩
  ⟨code,rank.name,rank.tier⟩

def charOut (slot : Slot) : CharOut := ⟨slot.charId,ttt2Characters.get slot.charId⟩

def achieverOut (place : ℕ) (achiever : Achiever) : AchieverOut where
  place := place
  username := achiever.standing.baseline.npid
  gain := achiever.best.gain
  main := achiever.best.main
  char := charOut achiever.best
  fromRank := rankOut achiever.best.start
  toRank := rankOut achiever.best.rank
  newPlayer := achiever.standing.baseline.newPlayer
  numberOnly := achiever.standing.baseline.numberOnly

def slotOut (slot : Slot) : SlotOut :=
  ⟨charOut slot,slot.main,rankOut slot.start,rankOut slot.target,rankOut slot.rank,slot.achieved⟩

/-- The main first, then what is achieved, then by gain. -/
def slotOrder (slot : Slot) : Bool ×ₗ Bool ×ₗ ℤ ×ₗ ℕ :=
  toLex (!slot.main,toLex (!slot.achieved,toLex (-slot.gain,slot.charId.val)))

/-- A main by its other half alone has nothing to show until it is played. -/
def shown (standing : Standing) : List Slot :=
  standing.slots.filter fun s => s.played || (s.main && s.rank = standing.baseline.topRank)

section
variable (casefold : String → String)

def playerOut (standing : Standing) (place : Option ℕ) : PlayerOut where
  username := standing.baseline.npid
  topRank := rankOut standing.baseline.topRank
  bestRank := rankOut standing.baseline.bestRank
  mainSteps := standing.baseline.mainSteps
  subSteps := subSteps
  subFloor := rankOut (standing.baseline.subFloor casefold)
  achieved := standing.best.isSome
  place := place
  newPlayer := standing.baseline.newPlayer
  numberOnly := standing.baseline.numberOnly
  slots := (sortedBy slotOrder (shown standing)).map slotOut

/-- The players of the event, by casefolded name. -/
structure EventService where
  baselines : Ordered String Baseline
  named : ∀ e ∈ baselines.entries, e.1 = casefold e.2.npid

def EventService.of (baselines : List Baseline) : EventService casefold where
  baselines := .ofList (baselines.map fun b => (casefold b.npid,b))
  named := by
    intro e he
    obtain ⟨b,_,rfl⟩ := List.mem_map.mp (Ordered.mem_ofList he)
    rfl

end

/-- `event:board` and `event:player:..`. -/
inductive Key
  | board
  | player (npid : String)
  deriving DecidableEq

abbrev Value : Key → Type
  | .board => List AchieverOut
  | .player _ => PlayerOut

section
variable {ε : Type} {casefold : String → String} (service : EventService casefold) (server : SaveServer ε)
  (settings : Settings)

abbrev playerKey (casefold : String → String) (npid : String) : Key := .player (casefold npid)

def eventClosed : EventError ε := .eventClosed "진행 중인 이벤트가 없습니다."

def eventPlayerNotFound : EventError ε := .eventPlayerNotFound "이벤트 시작 때 세이브가 없던 계정입니다."

def requireOpen : Except (EventError ε) Unit := if service.baselines.entries = [] then throw eventClosed else pure ()

/-- The baseline of a player of the event. -/
def requirePlayer (npid : String) : Except (EventError ε) Baseline :=
  (service.baselines.get? (casefold npid)).elim (throw eventPlayerNotFound) pure

/-- Every save's characters by casefolded name. -/
def savedChars (casefold : String → String) (players : List PlayerRanks) : Ordered String (List RankedChar) :=
  .ofList (players.map fun p => (casefold p.npid,p.chars))

def judgeFrom (casefold : String → String) (saved : Ordered String (List RankedChar)) (e : String × Baseline) :
    Except (EventError ε) Standing :=
  (judge casefold e.2 ((saved.get? e.1).getD [])).mapError fun _ => .indexError

def standingsFrom (players : List PlayerRanks) : Except (EventError ε) (List Standing) :=
  service.baselines.entries.mapM (judgeFrom casefold (savedChars casefold players))

def standings : Except (EventError ε) (List Standing) := do
  let players ← server.readRanks.mapError .server
  standingsFrom service players

def ranked (casefold : String → String) (standings : List Standing) : List (ℕ × Achiever) :=
  achievers casefold (standings.filter fun s => !settings.isRankingExcluded casefold s.baseline.npid)

def places (ranked : List (ℕ × Achiever)) : Ordered String ℕ :=
  .ofList (ranked.map fun e => (e.2.standing.baseline.npid,e.1))

def playerAnswer (casefold : String → String) (standings : List Standing) (standing : Standing) : PlayerOut :=
  playerOut casefold standing ((places (ranked settings casefold standings)).get? standing.baseline.npid)

def achieversOut (casefold : String → String) (standings : List Standing) : List AchieverOut :=
  (ranked settings casefold standings).map fun e => achieverOut e.1 e.2

def refresh : Call Value (EventError ε) (List AchieverOut) := do
  let judged ← ofExcept (standings service server)
  cacheSetAll (fun s : Standing => playerKey casefold s.baseline.npid) (playerAnswer settings casefold judged) judged
  cacheSet .board (achieversOut settings casefold judged)
  pure (achieversOut settings casefold judged)

def boardOut (now : ℤ) (achievers : List AchieverOut) : Board where
  startAt := eventStart
  endAt := settings.eventEndAt
  ended := settings.eventEndAt.any (· < now)
  capacity := capacity
  achievers := achievers

def board (now : ℤ) : Call Value (EventError ε) Board := do
  ofExcept (requireOpen service)
  let achievers ← orFill Key.board (fun _ => true) (refresh service server settings)
  pure (boardOut settings now achievers)

def player (npid : String) : Call Value (EventError ε) (Option PlayerOut) := do
  ofExcept (requireOpen service)
  let _ ← ofExcept (requirePlayer service npid)
  match ← cacheGet (playerKey casefold npid) with
  | some cached => pure (some cached)
  | none => do
    let _ ← refresh service server settings
    cacheGet (playerKey casefold npid)

/-! ## The same without the cache -/

def uncachedBoard (now : ℤ) : Except (EventError ε) Board := do
  requireOpen service
  let judged ← standings service server
  pure (boardOut settings now (achieversOut settings casefold judged))

def uncachedPlayer (npid : String) : Except (EventError ε) PlayerOut := do
  requireOpen service
  let baseline ← requirePlayer service npid
  let players ← server.readRanks.mapError .server
  let judged ← standingsFrom service players
  let standing ← judgeFrom casefold (savedChars casefold players) (casefold npid,baseline)
  pure (playerAnswer settings casefold judged standing)

def FromPass : ∀ k, Value k → Prop
  | .board,achievers => ∃ judged, standings service server = .ok judged ∧
    achieversOut settings casefold judged = achievers
  | .player name,out => ∃ judged, standings service server = .ok judged ∧
      ∃ s ∈ judged, casefold s.baseline.npid = name ∧ playerAnswer settings casefold judged s = out

/-- The player's entry is read at once, or it stands after the pass and is read then. The player is the
`i`th of `n`. -/
def Read (w : World Value) (name : String) (i n : ℕ) : Prop :=
  (w.fails 0 = false ∧ (w.holds (.player name)).isSome) ∨
    ((w.fails (i + 1) = false ∨ (w.holds (.player name)).isSome) ∧ w.fails (n + 2) = false)

end

end Tag2now.Event
