import Tag2now.Caching.Misses
import Tag2now.Saves.Domain
import Tag2now.Shared.Basics

/-! # Save profiles and the current-rank views

A profile, the leaderboard and the holders of a rank are read through the cache. One read
of every save fills the leaderboard and the holders of every rank at once, and each
request filters and slices what is there.
-/
namespace Tag2now.Saves
open Collections CacheMisses

/-- A save as anyone may see it. -/
structure Save where
  npid : String
  savedUtc : ℤ
  accountRank : ℕ
  total : ℕ
  wins : ℕ
  losses : ℕ
  chars : List RankedChar
  deriving DecidableEq

/-- The server that holds the saves. What it raises is its own. -/
structure SaveServer (ε : Type) where
  read : String → Except ε (Option Save)
  readRanks : Except ε (List PlayerRanks)

inductive SavesError (ε : Type)
  | saveNotFound (message : String)
  | keyError
  | server (e : ε)
  deriving DecidableEq

structure Profile where
  username : String
  savedAt : ℤ
  accountRank : ℕ
  total : ℕ
  wins : ℕ
  losses : ℕ
  chars : List RankedChar
  deriving DecidableEq

def profile (save : Save) : Profile :=
  ⟨save.npid,save.savedUtc,save.accountRank,save.total,save.wins,save.losses,save.chars⟩

/-- A missing save is kept too. -/
structure PlayerEntry where
  save : Option Profile
  deriving DecidableEq

/-- `saves:player:..`, `saves:current-rank-leaderboard` and `saves:current-rank-holders:..`. -/
inductive Key
  | player (npid : String)
  | currentRankLeaderboard
  | currentRankHolders (rank : ℕ)
  deriving DecidableEq

abbrev Value : Key → Type
  | .player _ => PlayerEntry
  | .currentRankLeaderboard => List PlayerRanks
  | .currentRankHolders _ => List Holder

structure Leaderboard where
  total : ℕ
  entries : List BoardEntry
  deriving DecidableEq

structure HolderChar where
  id : ℕ
  character : String
  deriving DecidableEq

structure HolderOut where
  username : String
  savedAt : ℤ
  accountRank : ℕ
  chars : List HolderChar
  deriving DecidableEq

structure Holders where
  rank : ℕ
  rankName : String
  total : ℕ
  entries : List HolderOut
  deriving DecidableEq

section
variable {ε : Type} (casefold : String → String) (settings : Settings) (server : SaveServer ε)

abbrev playerKey (npid : String) : Key := .player (casefold npid)

def saveNotFound : SavesError ε := .saveNotFound "이 플레이어의 TTT2 세이브가 없습니다."

def found {α : Type} (o : Option α) : Except (SavesError ε) α := o.elim (.error .keyError) .ok

def playerEntry (npid : String) : Except (SavesError ε) PlayerEntry :=
  ((server.read npid).mapError .server).map fun save => ⟨save.map profile⟩

def savedOrNotFound (entry : PlayerEntry) : Except (SavesError ε) Profile :=
  entry.save.elim (.error saveNotFound) .ok

def getPlayerSave (npid : String) : Call Value (SavesError ε) Profile := do
  let entry ← readThrough (playerKey casefold npid) (fun _ => true) (playerEntry server npid)
  ofExcept (savedOrNotFound entry)

def withoutExcluded {α : Type} (npid : α → String) (players : List α) : List α :=
  players.filter fun p => !settings.isRankingExcluded casefold (npid p)

/-- Both views of one read of every save: two best characters per player, and per rank who plays there. -/
def currentRankViews : Except (SavesError ε) (List PlayerRanks × Ordered ℕ (List Holder)) := do
  let players ← server.readRanks.mapError .server
  let board := players.map fun p => { p with chars := topTwo p.chars }
  let places := Ordered.ofList ((currentRankBoard casefold board).map fun e => (e.username,e.rank))
  let byRank ← (holdersByRank players places).mapError fun _ => .keyError
  pure (board,byRank)

def fillCurrentRankCache : Call Value (SavesError ε) (List PlayerRanks × Ordered ℕ (List Holder)) := do
  let views ← ofExcept (currentRankViews casefold server)
  cacheSet .currentRankLeaderboard views.1
  cacheSetAll (fun e => .currentRankHolders e.1) (fun e => e.2) views.2.entries
  pure views

def leaderboardOf (now : ℤ) (top : ℕ) (days : Option ℕ) (players : List PlayerRanks) : Leaderboard :=
  let board := currentRankBoard casefold
    (savedWithin (·.savedUtc) (withoutExcluded casefold settings (·.npid) players) days now)
  ⟨board.length,board.take top⟩

def getCurrentRankLeaderboard (now : ℤ) (top : ℕ) (days : Option ℕ) : Call Value (SavesError ε) Leaderboard := do
  let players ← orFill .currentRankLeaderboard (fun _ => true) do
    let views ← fillCurrentRankCache casefold server
    pure views.1
  pure (leaderboardOf casefold settings now top days players)

def holderChar (id : ℕ) : Except (SavesError ε) HolderChar := do
  let character ← found ttt2Characters[id]?
  pure ⟨id,character⟩

def holderOut (holder : Holder) : Except (SavesError ε) HolderOut := do
  let chars ← holder.chars.mapM holderChar
  pure ⟨holder.npid,holder.savedUtc,holder.accountRank,chars⟩

/-- Recent players with a character they play at the rank, the lowest on the leaderboard first. -/
def holdersOf (now : ℤ) (rank top days : ℕ) (holders : List Holder) : Except (SavesError ε) Holders := do
  let shown := sortedBy (fun h : Holder => toLex (-(h.place : ℤ),casefold h.npid))
    (savedWithin (·.savedUtc) (withoutExcluded casefold settings (·.npid) holders) (some days) now)
  let rankName ← found tekkenRanks[rank]?
  let entries ← (shown.take top).mapM holderOut
  pure ⟨rank,rankName.name,shown.length,entries⟩

def getCurrentRankHolders (now : ℤ) (rank top days : ℕ) : Call Value (SavesError ε) Holders := do
  let holders ← orFill (.currentRankHolders rank) (fun _ => true) do
    let views ← fillCurrentRankCache casefold server
    ofExcept (found (views.2.get? rank))
  ofExcept (holdersOf casefold settings now rank top days holders)

/-! ## The same without the cache -/

def uncachedPlayerSave (npid : String) : Except (SavesError ε) Profile := do
  let entry ← playerEntry server npid
  savedOrNotFound entry

def uncachedLeaderboard (now : ℤ) (top : ℕ) (days : Option ℕ) : Except (SavesError ε) Leaderboard := do
  let views ← currentRankViews casefold server
  pure (leaderboardOf casefold settings now top days views.1)

def uncachedHolders (now : ℤ) (rank top days : ℕ) : Except (SavesError ε) Holders := do
  let views ← currentRankViews casefold server
  let holders ← found (views.2.get? rank)
  holdersOf casefold settings now rank top days holders

/-- What one read of every save leaves in the cache. -/
def FromViews : ∀ k, Value k → Prop
  | .player _,_ => True
  | .currentRankLeaderboard,players => ∃ views, currentRankViews casefold server = .ok views ∧ views.1 = players
  | .currentRankHolders rank,holders =>
    ∃ views, currentRankViews casefold server = .ok views ∧ views.2.get? rank = some holders

variable {casefold settings server}

theorem getPlayerSave_gives (npid : String) : Gives
    (Stored (playerKey casefold npid) (playerEntry server npid)) (getPlayerSave casefold server npid)
    (uncachedPlayerSave server npid) := by
  have hentry := readThrough_gives (V := Value) (playerKey casefold npid) (fun _ => true) (playerEntry server npid)
  exact hentry.bind fun entry _ => gives_ofExcept (savedOrNotFound entry)

theorem fillCurrentRankCache_gives : Gives (FromViews casefold server) (fillCurrentRankCache casefold server)
    (currentRankViews casefold server) := by
  have hfill : Gives (FromViews casefold server) (fillCurrentRankCache casefold server)
      (currentRankViews casefold server >>= pure) := by
    refine (gives_ofExcept _).bind fun views hviews => ?_
    have hboard : FromViews casefold server .currentRankLeaderboard views.1 := ⟨views,hviews,rfl⟩
    have hholders : ∀ e ∈ views.2.entries, FromViews casefold server (.currentRankHolders e.1) e.2 :=
      fun e he => ⟨views,hviews,views.2.get?_of_mem he⟩
    exact (gives_cacheSet hboard).bind fun _ _ => (gives_cacheSetAll hholders).bind fun _ _ => gives_pure views
  rwa [bind_pure] at hfill

theorem getCurrentRankLeaderboard_gives (now : ℤ) (top : ℕ) (days : Option ℕ) : Gives (FromViews casefold server)
    (getCurrentRankLeaderboard casefold settings server now top days)
    (uncachedLeaderboard casefold settings server now top days) := by
  have hplayers : Gives (FromViews casefold server)
      (orFill .currentRankLeaderboard (fun _ => true) do
        let views ← fillCurrentRankCache casefold server
        pure views.1)
      (currentRankViews casefold server >>= fun views => .ok views.1) := by
    refine gives_orFill ?_ (fillCurrentRankCache_gives.bind fun views _ => gives_pure views.1)
    rintro players ⟨views,hviews,rfl⟩
    rw [hviews]
    rfl
  have hboard := hplayers.bind fun players _ => gives_pure (leaderboardOf casefold settings now top days players)
  rwa [bind_assoc] at hboard

theorem getCurrentRankHolders_gives (now : ℤ) (rank top days : ℕ) : Gives (FromViews casefold server)
    (getCurrentRankHolders casefold settings server now rank top days)
    (uncachedHolders casefold settings server now rank top days) := by
  have hholders : Gives (FromViews casefold server)
      (orFill (.currentRankHolders rank) (fun _ => true) do
        let views ← fillCurrentRankCache casefold server
        ofExcept (found (views.2.get? rank)))
      (currentRankViews casefold server >>= fun views => found (views.2.get? rank)) := by
    refine gives_orFill ?_ (fillCurrentRankCache_gives.bind fun views _ => gives_ofExcept _)
    rintro holders ⟨views,hviews,hrank⟩
    rw [hviews]
    change found (views.2.get? rank) = _
    rw [hrank]
    rfl
  have hfound := hholders.bind fun holders _ => gives_ofExcept (holdersOf casefold settings now rank top days holders)
  rwa [bind_assoc] at hfound

end

end Tag2now.Saves
