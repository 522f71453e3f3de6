import Tag2now.Collections.Places
import Tag2now.Matching.Leaderboard

/-! # Accounts kept off the leaderboard

A rank is one more than the number of entries ranked before it. Taking excluded accounts
out and moving the others up past them gives the ranks the others would have had alone.
-/
namespace Tag2now.Matching
open Collections CacheMisses

/-- Entries in rank order, each ranked behind all that have a smaller rank. -/
structure RankingLaw (entries : List LeaderboardEntry) : Prop where
  ordered : entries.Pairwise fun e f => e.rank ≤ f.rank
  rank : ∀ e ∈ entries, e.rank = 1 + (entries.countP fun f => f.rank < e.rank : ℕ)

section
variable {casefold : String → String} {settings : Settings} {entries : List LeaderboardEntry}

def remaining (casefold : String → String) (settings : Settings) (entries : List LeaderboardEntry) :
    List LeaderboardEntry :=
  entries.filter fun e => !settings.isRankingExcluded casefold e.npId

theorem countP_remaining (casefold : String → String) (settings : Settings) (entries : List LeaderboardEntry)
    (p : LeaderboardEntry → Bool) : entries.countP p =
    (remaining casefold settings entries).countP p +
      (entries.filter fun e => settings.isRankingExcluded casefold e.npId).countP p := by
  unfold remaining
  induction entries with
  | nil => rfl
  | cons e es ih =>
    cases hexcluded : settings.isRankingExcluded casefold e.npId <;> by_cases hp : p e <;>
      simp [hexcluded,hp,ih] <;> omega

theorem excludedRanks_countP (rank : ℤ) : (excludedRanks casefold settings entries).countP (· < rank) =
    (entries.filter fun e => settings.isRankingExcluded casefold e.npId).countP fun e => e.rank < rank := by
  unfold excludedRanks
  rw [List.countP_map]
  rfl

theorem movedUp_rank (hlaw : RankingLaw entries) {e : LeaderboardEntry} (he : e ∈ entries) :
    (movedUp (excludedRanks casefold settings entries) e).rank =
      placeIn LeaderboardEntry.rank (remaining casefold settings entries) e := by
  have hrank := hlaw.rank e he
  have hsplit := countP_remaining casefold settings entries fun f => f.rank < e.rank
  change e.rank - ((excludedRanks casefold settings entries).countP (· < e.rank) : ℕ) = _
  rw [excludedRanks_countP]
  unfold placeIn
  omega

theorem mem_of_remaining {e : LeaderboardEntry} (h : e ∈ remaining casefold settings entries) : e ∈ entries :=
  (List.mem_filter.mp h).1

theorem movedUp_lt_iff (hlaw : RankingLaw entries) {e f : LeaderboardEntry}
    (he : e ∈ remaining casefold settings entries)
    (hf : f ∈ remaining casefold settings entries) : (movedUp (excludedRanks casefold settings entries) e).rank <
      (movedUp (excludedRanks casefold settings entries) f).rank ↔ e.rank < f.rank := by
  rw [movedUp_rank hlaw (mem_of_remaining he),movedUp_rank hlaw (mem_of_remaining hf),Int.ofNat_lt]
  exact placeIn_lt_iff he f

theorem movedUp_law (hlaw : RankingLaw entries) : RankingLaw
    ((remaining casefold settings entries).map (movedUp (excludedRanks casefold settings entries))) where
  ordered := by
    apply List.pairwise_map.mpr
    have hkept := hlaw.ordered.sublist (List.filter_sublist (p := fun e => !settings.isRankingExcluded casefold e.npId))
    refine hkept.imp_of_mem ?_
    intro e f he hf hle
    exact not_lt.mp fun hlt => not_lt.mpr hle ((movedUp_lt_iff hlaw hf he).mp hlt)
  rank := by
    intro e' he'
    obtain ⟨e,he,rfl⟩ := List.mem_map.mp he'
    have hcount : ((remaining casefold settings entries).map (movedUp (excludedRanks casefold settings entries))).countP
        (fun f => f.rank < (movedUp (excludedRanks casefold settings entries) e).rank) =
          (remaining casefold settings entries).countP fun f => f.rank < e.rank := by
      rw [List.countP_map]
      apply List.countP_congr
      intro f hf
      simpa using movedUp_lt_iff hlaw hf he
    rw [hcount,movedUp_rank hlaw (mem_of_remaining he)]
    exact Int.natCast_add ..

theorem mem_zip_map {α β : Type} {f : α → β} {xs : List α} {p : α × β} (h : p ∈ xs.zip (xs.map f)) :
    p.1 ∈ xs ∧ p.2 = f p.1 := by
  induction xs with
  | nil => cases h
  | cons x xs ih =>
    rcases List.mem_cons.mp h with rfl | h
    · exact ⟨List.mem_cons_self,rfl⟩
    · exact ⟨List.mem_cons_of_mem _ (ih h).1,(ih h).2⟩

theorem movedUp_nil (entry : LeaderboardEntry) : movedUp [] entry = entry := by
  unfold movedUp
  simp

theorem withoutExcluded_idem (lb : LeaderboardResult) : withoutExcluded casefold settings
    (withoutExcluded casefold settings lb) = withoutExcluded casefold settings lb := by
  have hnone : ∀ e ∈ (withoutExcluded casefold settings lb).entries,
      settings.isRankingExcluded casefold e.npId = false := by
    intro e' he'
    obtain ⟨e,he,rfl⟩ := List.mem_map.mp he'
    have hnot : settings.isRankingExcluded casefold e.npId = false := by simpa using (List.mem_filter.mp he).2
    exact hnot
  have hexcluded : excludedRanks casefold settings (withoutExcluded casefold settings lb).entries = [] := by
    unfold excludedRanks
    rw [List.map_eq_nil_iff,List.filter_eq_nil_iff]
    intro e he
    simp [hnone e he]
  have hall : (withoutExcluded casefold settings lb).entries.filter
      (fun e => !settings.isRankingExcluded casefold e.npId) = (withoutExcluded casefold settings lb).entries := by
    apply List.filter_eq_self.mpr
    intro e he
    simp [hnone e he]
  rw [withoutExcluded,hexcluded,hall,List.map_congr_left fun e _ => movedUp_nil e,List.map_id']
  simp

end

/-- Over one result of the fetch, the cached request answers with the first entries of those left. -/
theorem getLeaderboard_onlyMisses {ε : Type} (casefold : String → String) (settings : Settings)
    {lb : LeaderboardResult} {fetch : GetLeaderboard ε} {comId : String} {boardId : ℤ}
    (hfetch : fetch comId boardId leaderboardCacheSize = .ok lb) (numRanks : ℕ) :
    OnlyMisses (Stored (leaderboardCacheKey comId boardId)
        (uncachedFullLeaderboard casefold settings fetch comId boardId))
      (getLeaderboard casefold settings fetch comId boardId numRanks)
      (.ok { withoutExcluded casefold settings lb with
        entries := (withoutExcluded casefold settings lb).entries.take numRanks }) := by
  have hfull : uncachedFullLeaderboard casefold settings fetch comId boardId =
      .ok (withoutExcluded casefold settings lb) := by
    unfold uncachedFullLeaderboard
    rw [hfetch]
    rfl
  have hsliced : uncachedLeaderboard casefold settings fetch comId boardId numRanks =
      .ok { withoutExcluded casefold settings lb with
        entries := (withoutExcluded casefold settings lb).entries.take numRanks } := by
    unfold uncachedLeaderboard
    rw [hfull]
    rfl
  rw [← hsliced]
  exact ((readThrough_gives _ _ _).map (topRanks numRanks)).onlyMisses

/-- The ranking law survives the exclusion, ties stay ties, and nothing else of an entry changes. -/
theorem withoutExcluded_rankingLaw {ε : Type} (casefold : String → String) (settings : Settings)
    {lb : LeaderboardResult} (hlaw : RankingLaw lb.entries) :
    List.Forall₂ (fun e e' => e' = { e with rank := e'.rank }) (remaining casefold settings lb.entries)
        (withoutExcluded casefold settings lb).entries ∧
      RankingLaw (withoutExcluded casefold settings lb).entries ∧
      (∀ p ∈ (remaining casefold settings lb.entries).zip (withoutExcluded casefold settings lb).entries,
        ∀ q ∈ (remaining casefold settings lb.entries).zip (withoutExcluded casefold settings lb).entries,
          p.2.rank = q.2.rank ↔ p.1.rank = q.1.rank) ∧
      (withoutExcluded casefold settings lb).totalRecords =
        lb.totalRecords - (lb.entries.countP fun e => settings.isRankingExcluded casefold e.npId : ℕ) ∧
      (withoutExcluded casefold settings lb).lastSortDate = lb.lastSortDate ∧
      withoutExcluded casefold settings (withoutExcluded casefold settings lb) = withoutExcluded casefold settings lb ∧
      ∀ (fetch : GetLeaderboard ε) (comId : String) (boardId : ℤ) (numRanks : ℕ),
        fetch comId boardId leaderboardCacheSize = .ok lb →
        OnlyMisses
          (Stored (leaderboardCacheKey comId boardId) (uncachedFullLeaderboard casefold settings fetch comId boardId))
          (getLeaderboard casefold settings fetch comId boardId numRanks)
          (.ok { withoutExcluded casefold settings lb with
            entries := (withoutExcluded casefold settings lb).entries.take numRanks }) := by
  refine ⟨?_,movedUp_law hlaw,?_,?_,rfl,withoutExcluded_idem lb,?_⟩
  · apply List.forall₂_map_right_iff.mpr
    apply List.forall₂_same.mpr
    exact fun e _ => rfl
  · intro p hp q hq
    obtain ⟨hp₁,hp₂⟩ := mem_zip_map hp
    obtain ⟨hq₁,hq₂⟩ := mem_zip_map hq
    rw [hp₂,hq₂,movedUp_rank hlaw (mem_of_remaining hp₁),movedUp_rank hlaw (mem_of_remaining hq₁),Int.natCast_inj]
    exact placeIn_eq_iff hp₁ hq₁
  · have hlength : (excludedRanks casefold settings lb.entries).length =
        lb.entries.countP fun e => settings.isRankingExcluded casefold e.npId := by
      unfold excludedRanks
      rw [List.length_map,List.countP_eq_length_filter]
    rw [← hlength]
    rfl
  · intro fetch comId boardId numRanks hfetch
    exact getLeaderboard_onlyMisses casefold settings hfetch numRanks

def tied : LeaderboardResult where
  totalRecords := 4
  lastSortDate := 0
  entries := [⟨1,"lars","Lars",900,0,0,false,"",none⟩,⟨2,"bob","Bob",800,0,0,false,"",none⟩,
    ⟨2,"asuka","Asuka",800,0,0,false,"",none⟩,⟨4,"jin","Jin",700,0,0,false,"",none⟩]

theorem tied_rankingLaw : RankingLaw tied.entries where
  ordered := by decide
  rank := by decide

/-- One of a tie is taken out. -/
theorem withoutExcluded_rankingLaw_tied : RankingLaw (withoutExcluded id ⟨["bob"],none⟩ tied).entries ∧
    ∀ (fetch : GetLeaderboard Unit) (comId : String) (boardId : ℤ) (numRanks : ℕ),
      fetch comId boardId leaderboardCacheSize = .ok tied →
      OnlyMisses (Stored (leaderboardCacheKey comId boardId)
          (uncachedFullLeaderboard id ⟨["bob"],none⟩ fetch comId boardId))
        (getLeaderboard id ⟨["bob"],none⟩ fetch comId boardId numRanks)
        (.ok { withoutExcluded id ⟨["bob"],none⟩ tied with
          entries := (withoutExcluded id ⟨["bob"],none⟩ tied).entries.take numRanks }) := by
  obtain ⟨_,hranked,_,_,_,_,hanswer⟩ := withoutExcluded_rankingLaw id ⟨["bob"],none⟩ tied_rankingLaw
  exact ⟨hranked,hanswer⟩

end Tag2now.Matching
