import Tag2now.Community.Detail
import Tag2now.Event.Answers
import Tag2now.History.Stats
import Tag2now.Matching.Leaderboard
import Tag2now.Popup.Service
import Tag2now.Records.Tallies
import Tag2now.Streaming.Service

/-! # A cache that fails

Every cached read of the services, over a cache whose reads and writes fail in any pattern
and which may hold what the same computations stored before. All of them answer as without
the cache but the event's player, who is read back from the cache after a pass.
-/
namespace Tag2now
open CacheMisses Collections

structure Upstream (ε : Type) (casefold : String → String) where
  event : Event.EventService casefold
  saves : Saves.SaveServer ε
  popups : Popups.ListPopups ε
  streams : Streaming.Streams ε
  tallies : Records.TallyRepository ε
  stats : History.StatsRepository ε
  community : Community.CommunityRepository ε
  leaderboards : Matching.GetLeaderboard ε

section
variable {ε : Type} (casefold lower : String → String) (settings : Settings) (now : ℤ) (up : Upstream ε casefold)

/-- The reads that answer with what they computed. -/
structure ReadsOnlyMiss : Prop where
  eventBoard : OnlyMisses (Event.FromPass up.event up.saves settings)
    (Event.board up.event up.saves settings now) (Event.uncachedBoard up.event up.saves settings now)
  playerSave : ∀ npid, OnlyMisses (Stored (Saves.playerKey casefold npid) (Saves.playerEntry up.saves npid))
    (Saves.getPlayerSave casefold up.saves npid) (Saves.uncachedPlayerSave up.saves npid)
  currentRankLeaderboard : ∀ top days, OnlyMisses (Saves.FromViews casefold up.saves)
    (Saves.getCurrentRankLeaderboard casefold settings up.saves now top days)
    (Saves.uncachedLeaderboard casefold settings up.saves now top days)
  currentRankHolders : ∀ rank top days, OnlyMisses (Saves.FromViews casefold up.saves)
    (Saves.getCurrentRankHolders casefold settings up.saves now rank top days)
    (Saves.uncachedHolders casefold settings up.saves now rank top days)
  activePopups : OnlyMisses (Stored Popups.activeKey (Popups.uncachedActive up.popups))
    (Popups.listActive up.popups) (Popups.uncachedActive up.popups)
  liveStreams : ∀ npids, OnlyMisses (Streaming.FromStreams lower up.streams)
    (Streaming.liveFor lower up.streams npids) (Streaming.uncachedLiveFor lower up.streams npids)
  weeklyTop : ∀ limit,
    OnlyMisses (Stored (Records.Key.weeklyTop limit) (Records.uncachedWeeklyTop settings up.tallies now limit))
      (Records.weeklyTopPlayers settings up.tallies now limit) (Records.uncachedWeeklyTop settings up.tallies now limit)
  opponents : ∀ npid days,
    OnlyMisses (Stored (Records.Key.opponents npid days) (Records.uncachedOpponents up.tallies now npid days))
      (Records.frequentOpponents up.tallies now npid days) (Records.uncachedOpponents up.tallies now npid days)
  hourlyActivity : ∀ days, OnlyMisses (Stored (History.Key.hourly days) (up.stats.getHourlyActivity days))
    (History.getHourlyActivity up.stats days) (up.stats.getHourlyActivity days)
  dailySummary : ∀ days, OnlyMisses (Stored (History.Key.daily days) (up.stats.getDailySummary days))
    (History.getDailySummary up.stats days) (up.stats.getDailySummary days)
  playerStats : ∀ npid days,
    OnlyMisses (Stored (History.Key.playerStats npid days) (up.stats.getPlayerStats npid days))
      (History.getPlayerStats up.stats npid days) (up.stats.getPlayerStats npid days)
  posts : ∀ q, OnlyMisses (Stored (Community.Key.posts q.key) (Community.uncachedListPosts up.community q))
    (Community.cachedListPosts up.community q) (Community.uncachedListPosts up.community q)
  post : ∀ postId, OnlyMisses (Stored (Community.Key.post postId) (Community.uncachedGetPost up.community postId))
    (Community.cachedGetPost up.community postId) (Community.uncachedGetPost up.community postId)
  leaderboard : ∀ comId boardId numRanks,
    OnlyMisses (Stored (Matching.leaderboardCacheKey comId boardId)
        (Matching.uncachedFullLeaderboard casefold settings up.leaderboards comId boardId))
      (Matching.getLeaderboard casefold settings up.leaderboards comId boardId numRanks)
      (Matching.uncachedLeaderboard casefold settings up.leaderboards comId boardId numRanks)

/-- Whatever fails, every cached read answers as without the cache, the event's player just where the entry
is read at once, or stands after the pass and is read then. -/
theorem failing_cache_uncached : ReadsOnlyMiss casefold lower settings now up ∧
    ∀ npid (w : World Event.Value), w.Right (Event.FromPass up.event up.saves settings) →
      (answer (Event.player up.event up.saves settings npid) w =
          some <$> Event.uncachedPlayer up.event up.saves settings npid ↔
        ∀ i, (up.event.baselines.entries.map Prod.fst)[i]? = some (casefold npid) →
          ∀ judged, Event.standings up.event up.saves = .ok judged →
            Event.Read w (casefold npid) i up.event.baselines.entries.length) := by
  refine ⟨?_,fun npid w hw => Event.player_answer_iff npid hw⟩
  constructor
  case eventBoard => exact (Event.board_gives now).onlyMisses
  case playerSave => exact fun npid => (Saves.getPlayerSave_gives npid).onlyMisses
  case currentRankLeaderboard => exact fun top days => (Saves.getCurrentRankLeaderboard_gives now top days).onlyMisses
  case currentRankHolders => exact fun rank top days => (Saves.getCurrentRankHolders_gives now rank top days).onlyMisses
  case liveStreams => exact fun npids => (Streaming.liveFor_gives npids).onlyMisses
  case leaderboard => exact fun _ _ numRanks => ((readThrough_gives _ _ _).map (Matching.topRanks numRanks)).onlyMisses
  all_goals
    intros
    exact (readThrough_gives _ _ _).onlyMisses

end

/-! An event with one player, who has no save now. -/

def beginner : Event.Baseline := ⟨"beginner",fun _ => ⟨0,0,0⟩,0,false⟩

def oneEvent : Event.EventService id := .of id [beginner]

def noSaves : Saves.SaveServer Unit := ⟨fun _ => .ok none,.ok []⟩

/-- Empty, and the write of the player's entry is dropped. -/
def droppingFirst : World Event.Value := ⟨fun _ => none,fun n => n = 1⟩

/-- The player is answered null. -/
theorem player_dropped : ¬ ∀ npid, OnlyMisses (Event.FromPass oneEvent noSaves ⟨[],none⟩)
    (Event.player oneEvent noSaves ⟨[],none⟩ npid)
    (some <$> Event.uncachedPlayer oneEvent noSaves ⟨[],none⟩ npid) := by
  intro h
  have hempty : droppingFirst.Right (Event.FromPass oneEvent noSaves ⟨[],none⟩) := fun _ _ hheld => by cases hheld
  have hnull : answer (Event.player oneEvent noSaves ⟨[],none⟩ "beginner") droppingFirst = .ok none := rfl
  have hsome := hnull.symm.trans (h "beginner" droppingFirst hempty)
  cases Event.uncachedPlayer oneEvent noSaves ⟨[],none⟩ "beginner" <;> cases hsome

end Tag2now
