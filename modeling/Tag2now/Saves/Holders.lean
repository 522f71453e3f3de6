import Tag2now.Collections.Fallible
import Tag2now.Saves.Service

/-! # Who plays at a rank

Every holder has a place: a player with a character played has one, and the leaderboard
lists every player with a character. Places are counted over all players before any
filter, but whoever stands better than another among all stands better among those left.
-/
namespace Tag2now.Saves
open Collections CacheMisses

/-! ## The characters of one player -/

def playedAt (rank : ℕ) (char : RankedChar) : Bool := (char.wins ≠ 0 ∨ char.losses ≠ 0) ∧ char.rank = rank

/-- The ids of the characters played at a rank, in the order of the save. -/
def playedIds (rank : ℕ) (chars : List RankedChar) : List ℕ := (chars.filter (playedAt rank)).map (·.id)

theorem get?_foldl_played (chars : List RankedChar) (played : Ordered ℕ (List ℕ)) (rank : ℕ) :
    (chars.foldl (fun played c => played.set c.rank ((played.get? c.rank).getD [] ++ [c.id])) played).get? rank =
      if chars.filter (·.rank = rank) = [] then played.get? rank
      else some ((played.get? rank).getD [] ++ (chars.filter (·.rank = rank)).map (·.id)) := by
  induction chars generalizing played with
  | nil => rfl
  | cons c cs ih =>
    rw [List.foldl_cons,ih,Ordered.get?_set]
    by_cases h : c.rank = rank
    · subst h
      simp only [decide_true,List.filter_cons_of_pos,if_true,reduceCtorEq,if_false,Option.getD_some,List.map_cons]
      split
      · rename_i hnone
        simp [hnone]
      · simp
    · simp [h,Ne.symm h]

theorem get?_playedIdsByRank (chars : List RankedChar) (rank : ℕ) : (playedIdsByRank chars).get? rank =
    if (chars.filter holdsItsRank).filter (·.rank = rank) = [] then none
    else some (((chars.filter holdsItsRank).filter (·.rank = rank)).map (·.id)) :=
  get?_foldl_played (chars.filter holdsItsRank) .empty rank

theorem get?_played {rank : ℕ} (hrank : rank ∈ holderRanks) (chars : List RankedChar) :
    (playedIdsByRank chars).get? rank = if playedIds rank chars = [] then none else some (playedIds rank chars) := by
  have hfilter : (chars.filter holdsItsRank).filter (·.rank = rank) = chars.filter (playedAt rank) := by
    rw [List.filter_filter]
    apply List.filter_congr
    intro c _
    unfold holdsItsRank playedAt
    by_cases h : c.rank = rank
    · simp [h,hrank]
    · simp [h]
  rw [get?_playedIdsByRank,hfilter]
  unfold playedIds
  simp only [List.map_eq_nil_iff]

theorem played_holderRanks {chars : List RankedChar} {e : ℕ × List ℕ} (he : e ∈ (playedIdsByRank chars).entries) :
    e.1 ∈ holderRanks ∧ chars ≠ [] := by
  have hget := (playedIdsByRank chars).get?_of_mem he
  rw [get?_playedIdsByRank] at hget
  split at hget
  · cases hget
  · rename_i hne
    obtain ⟨c,hc⟩ := List.exists_mem_of_ne_nil _ hne
    obtain ⟨hholds,hrank⟩ := List.mem_filter.mp hc
    obtain ⟨hmem,hplayed⟩ := List.mem_filter.mp hholds
    have hranks : c.rank ∈ holderRanks := (of_decide_eq_true hplayed).2
    exact ⟨of_decide_eq_true hrank ▸ hranks,List.ne_nil_of_mem hmem⟩

/-! ## The holders of every rank -/

def holderAt (place : ℕ) (player : PlayerRanks) (ids : List ℕ) : Holder :=
  ⟨player.npid,player.savedUtc,player.accountRank,place,ids⟩

section
variable {places : Ordered String ℕ} {byRank : Ordered ℕ (List Holder)}

theorem foldlM_addHolder {player : PlayerRanks} {place : ℕ} (hplace : places.get? player.npid = some place)
    {es : List (ℕ × List ℕ)} (hranks : ∀ e ∈ es, (byRank.get? e.1).isSome) :
    ∃ byRank', es.foldlM (fun byRank e => addHolder places player byRank e.1 e.2) byRank = .ok byRank' ∧
      ∀ r,
        byRank'.get? r = (byRank.get? r).map (· ++ (es.filter (·.1 = r)).map fun e => holderAt place player e.2) := by
  induction es generalizing byRank with
  | nil => exact ⟨byRank,rfl,fun r => by simp⟩
  | cons e es ih =>
    obtain ⟨holders,hholders⟩ := Option.isSome_iff_exists.mp (hranks e List.mem_cons_self)
    have hadd : addHolder places player byRank e.1 e.2 =
        .ok (byRank.set e.1 (holders ++ [holderAt place player e.2])) := by
      unfold addHolder
      rw [hholders,hplace]
      rfl
    have hrest : ∀ e' ∈ es, ((byRank.set e.1 (holders ++ [holderAt place player e.2])).get? e'.1).isSome := by
      intro e' he'
      rw [Ordered.get?_set]
      split
      · rfl
      · exact hranks e' (List.mem_cons_of_mem _ he')
    obtain ⟨byRank',hrun,hget⟩ := ih hrest
    refine ⟨byRank',?_,?_⟩
    · rw [List.foldlM_cons,hadd]
      exact hrun
    · intro r
      rw [hget,Ordered.get?_set]
      by_cases hr : r = e.1
      · subst hr
        simp [hholders]
      · simp [hr,Ne.symm hr]

/-- One player is added under each rank they have played, and a player with nothing played under none. -/
theorem foldlM_played {p : PlayerRanks} {place : ℕ} (hplace : p.chars ≠ [] → places.get? p.npid = some place)
    (hranks : ∀ rank ∈ holderRanks, (byRank.get? rank).isSome) :
    ∃ byRank', (playedIdsByRank p.chars).entries.foldlM
        (fun byRank e => addHolder places p byRank e.1 e.2) byRank = .ok byRank' ∧
      ∀ r, byRank'.get? r = (byRank.get? r).map
        (· ++ ((playedIdsByRank p.chars).get? r).toList.map (holderAt place p)) := by
  by_cases hnone : (playedIdsByRank p.chars).entries = []
  · refine ⟨byRank,by rw [hnone]; rfl,?_⟩
    intro r
    have hget : (playedIdsByRank p.chars).get? r = none := by
      rw [Ordered.get?_eq_none_iff,hnone]
      exact List.not_mem_nil
    simp [hget]
  · obtain ⟨e,he⟩ := List.exists_mem_of_ne_nil _ hnone
    have hplayed : ∀ e ∈ (playedIdsByRank p.chars).entries, (byRank.get? e.1).isSome :=
      fun e he => hranks e.1 (played_holderRanks he).1
    obtain ⟨byRank',hrun,hget⟩ := foldlM_addHolder (hplace (played_holderRanks he).2) hplayed
    refine ⟨byRank',hrun,?_⟩
    intro r
    rw [hget,← Ordered.filter_key,List.map_map]
    rfl

theorem foldlM_holders {players : List PlayerRanks} {placeOf : PlayerRanks → ℕ}
    (hplaces : ∀ p ∈ players, p.chars ≠ [] → places.get? p.npid = some (placeOf p))
    (hranks : ∀ rank ∈ holderRanks, (byRank.get? rank).isSome) :
    ∃ byRank', players.foldlM (fun byRank player =>
        (playedIdsByRank player.chars).entries.foldlM (fun byRank e => addHolder places player byRank e.1 e.2) byRank)
        byRank = .ok byRank' ∧
      ∀ r, byRank'.get? r = (byRank.get? r).map (· ++ players.flatMap fun p =>
        ((playedIdsByRank p.chars).get? r).toList.map (holderAt (placeOf p) p)) := by
  induction players generalizing byRank with
  | nil => exact ⟨byRank,rfl,fun r => by simp⟩
  | cons p players ih =>
    obtain ⟨byRank₁,hrun₁,hget₁⟩ := foldlM_played (hplaces p List.mem_cons_self) hranks
    have hranks₁ : ∀ rank ∈ holderRanks, (byRank₁.get? rank).isSome := by
      intro rank hrank
      rw [hget₁,Option.isSome_map]
      exact hranks rank hrank
    obtain ⟨byRank₂,hrun₂,hget₂⟩ := ih (fun q hq => hplaces q (List.mem_cons_of_mem _ hq)) hranks₁
    refine ⟨byRank₂,?_,?_⟩
    · rw [List.foldlM_cons,hrun₁]
      exact hrun₂
    · intro r
      rw [hget₂,hget₁,Option.map_map]
      simp [Function.comp_def]

theorem flatMap_holders {rank : ℕ} (hrank : rank ∈ holderRanks) (players : List PlayerRanks)
    (placeOf : PlayerRanks → ℕ) :
    (players.flatMap fun p => ((playedIdsByRank p.chars).get? rank).toList.map (holderAt (placeOf p) p)) =
      (players.filter fun p => playedIds rank p.chars ≠ []).map fun p =>
        holderAt (placeOf p) p (playedIds rank p.chars) := by
  induction players with
  | nil => rfl
  | cons p players ih =>
    rw [List.flatMap_cons,ih,get?_played hrank]
    by_cases h : playedIds rank p.chars = []
    · simp [h]
    · simp [h]

/-- Each rank lists the players with a character played there, with their places. -/
theorem holdersByRank_ok {players : List PlayerRanks} {placeOf : PlayerRanks → ℕ}
    (hplaces : ∀ p ∈ players, p.chars ≠ [] → places.get? p.npid = some (placeOf p)) :
    ∃ byRank, holdersByRank players places = .ok byRank ∧ ∀ rank ∈ holderRanks, byRank.get? rank =
      some ((players.filter fun p => playedIds rank p.chars ≠ []).map fun p =>
        holderAt (placeOf p) p (playedIds rank p.chars)) := by
  have hempty : ∀ rank ∈ holderRanks,
      (Ordered.ofList (holderRanks.map fun rank => (rank,([] : List Holder)))).get? rank = some [] := by
    intro rank hrank
    apply Ordered.get?_of_mem
    rw [Ordered.ofList_entries (by decide)]
    exact List.mem_map_of_mem hrank
  obtain ⟨byRank,hrun,hget⟩ := foldlM_holders hplaces fun rank hrank => by rw [hempty rank hrank]; rfl
  refine ⟨byRank,hrun,?_⟩
  intro rank hrank
  rw [hget,hempty rank hrank,Option.map_some,List.nil_append]
  rw [flatMap_holders hrank]

end

/-! ## Places on the leaderboard -/

/-- A player as the leaderboard keeps them. -/
def trimmed (player : PlayerRanks) : PlayerRanks := { player with chars := topTwo player.chars }

def placing (players : List PlayerRanks) : List PlayerRanks := players.filter fun p => p.chars ≠ []

theorem topTwo_ne_nil {chars : List RankedChar} (h : chars ≠ []) : topTwo chars ≠ [] := by
  have hlength := (sortedBy_perm (fun c : RankedChar => toLex (-(c.rank : ℤ),-(c.points : ℤ))) chars).length_eq
  have hpos := List.length_pos_iff.mpr h
  apply List.ne_nil_of_length_pos
  unfold topTwo
  rw [List.length_take]
  omega

theorem map_npid_trimmed (players : List PlayerRanks) : (players.map trimmed).map (·.npid) = players.map (·.npid) := by
  rw [List.map_map]
  rfl

theorem trimmed_placing {players : List PlayerRanks} {p : PlayerRanks} (hp : p ∈ players) (h : p.chars ≠ []) :
    trimmed p ∈ placing (players.map trimmed) :=
  List.mem_filter.mpr ⟨List.mem_map_of_mem hp,decide_eq_true (topTwo_ne_nil h)⟩

section
variable {casefold : String → String} {settings : Settings}

theorem currentRankBoard_eq (players : List PlayerRanks) : currentRankBoard casefold players =
    (sortedBy (fun p => toLex (standing p,casefold p.npid)) (placing players)).map fun p =>
      boardEntry (placeIn standing (placing players) p) p := by
  unfold currentRankBoard
  change (placed standing (sortedBy _ (placing players))).map _ = _
  rw [placed_sortedBy,List.map_map]
  rfl

theorem mem_currentRankBoard {players : List PlayerRanks} {e : BoardEntry} : e ∈ currentRankBoard casefold players ↔
    ∃ p ∈ placing players, e = boardEntry (placeIn standing (placing players) p) p := by
  rw [currentRankBoard_eq,List.mem_map]
  simp only [(sortedBy_perm _ _).mem_iff,eq_comm]

theorem get?_places {players : List PlayerRanks} (hnpids : (players.map (·.npid)).Nodup) {p : PlayerRanks}
    (hp : p ∈ placing players) :
    (Ordered.ofList ((currentRankBoard casefold players).map fun e => (e.username,e.rank))).get? p.npid =
      some (placeIn standing (placing players) p) := by
  have hkeys : (((currentRankBoard casefold players).map fun e => (e.username,e.rank)).map Prod.fst).Nodup := by
    rw [currentRankBoard_eq,List.map_map,List.map_map]
    apply ((sortedBy_perm _ (placing players)).map (·.npid)).nodup_iff.mpr
    exact hnpids.sublist (List.filter_sublist.map _)
  apply Ordered.get?_of_mem
  rw [Ordered.ofList_entries hkeys]
  exact List.mem_map.mpr ⟨_,mem_currentRankBoard.mpr ⟨p,hp,rfl⟩,rfl⟩

variable {ε : Type} {server : SaveServer ε}

def placeAmong (players : List PlayerRanks) (p : PlayerRanks) : ℕ :=
  placeIn standing (placing (players.map trimmed)) (trimmed p)

def holdersAt (rank : ℕ) (players : List PlayerRanks) : List Holder :=
  (players.filter fun p => playedIds rank p.chars ≠ []).map fun p =>
    holderAt (placeAmong players p) p (playedIds rank p.chars)

theorem currentRankViews_ok (casefold : String → String) {players : List PlayerRanks}
    (hread : server.readRanks = .ok players)
    (hnpids : (players.map (·.npid)).Nodup) : ∃ views, currentRankViews casefold server = .ok views ∧
      views.1 = players.map trimmed ∧ ∀ rank ∈ holderRanks, views.2.get? rank = some (holdersAt rank players) := by
  have hplaces : ∀ p ∈ players, p.chars ≠ [] → (Ordered.ofList ((currentRankBoard casefold (players.map trimmed)).map
      fun e => (e.username,e.rank))).get? p.npid = some (placeAmong players p) :=
    fun p hp h => get?_places (map_npid_trimmed players ▸ hnpids) (trimmed_placing hp h)
  obtain ⟨byRank,hrun,hget⟩ := holdersByRank_ok hplaces
  refine ⟨(players.map trimmed,byRank),?_,rfl,hget⟩
  unfold currentRankViews
  rw [hread]
  change (Except.mapError _ (holdersByRank players (Ordered.ofList
    ((currentRankBoard casefold (players.map trimmed)).map fun e => (e.username,e.rank)))) >>= fun byRank => _) = _
  rw [hrun]
  rfl

/-! ## The holders of one rank and the leaderboard, for the same request -/

/-- Not excluded, and saved in the last days. -/
def shownFor (casefold : String → String) (settings : Settings) (now : ℤ) (days : ℕ) (npid : String)
    (savedUtc : ℤ) : Bool :=
  !settings.isRankingExcluded casefold npid && now - days * day ≤ savedUtc

theorem savedWithin_withoutExcluded {α : Type} (npid : α → String) (savedUtc : α → ℤ) (xs : List α) (now : ℤ)
    (days : ℕ) :
    savedWithin savedUtc (withoutExcluded casefold settings npid xs) (some days) now =
      xs.filter fun a => shownFor casefold settings now days (npid a) (savedUtc a) := by
  unfold savedWithin withoutExcluded
  dsimp only
  rw [List.filter_filter]
  apply List.filter_congr
  intro a _
  exact Bool.and_comm ..

def shownHolder (holder : Holder) : HolderOut :=
  ⟨holder.npid,holder.savedUtc,holder.accountRank,holder.chars.map fun id => ⟨id,ttt2Characters[id]?.getD ""⟩⟩

theorem getElem?_ttt2Characters {id : ℕ} (h : id < characterCount) :
    ttt2Characters[id]? = some (ttt2Characters[id]?.getD "") := by
  have hsome := List.getElem?_eq_getElem (l := ttt2Characters) (i := id) (ttt2Characters_length ▸ h)
  rw [hsome]
  rfl

theorem holderOut_ok {holder : Holder} (h : ∀ id ∈ holder.chars, id < characterCount) :
    (holderOut holder : Except (SavesError ε) HolderOut) = .ok (shownHolder holder) := by
  have hchars : (holder.chars.mapM holderChar : Except (SavesError ε) (List HolderChar)) =
      .ok (holder.chars.map fun id => ⟨id,ttt2Characters[id]?.getD ""⟩) := by
    apply mapM_map
    intro id hid
    unfold holderChar
    rw [getElem?_ttt2Characters (h id hid)]
    rfl
  unfold holderOut
  rw [hchars]
  rfl

def shownHolders (casefold : String → String) (settings : Settings) (now : ℤ) (days rank : ℕ)
    (players : List PlayerRanks) : List Holder :=
  sortedBy (fun h : Holder => toLex (-(h.place : ℤ),casefold h.npid))
    ((holdersAt rank players).filter fun h => shownFor casefold settings now days h.npid h.savedUtc)

/-- The players of the leaderboard for the same request. -/
def boardPlayers (casefold : String → String) (settings : Settings) (now : ℤ) (days : ℕ)
    (players : List PlayerRanks) : List PlayerRanks :=
  (players.map trimmed).filter fun p => shownFor casefold settings now days p.npid p.savedUtc

section
variable {players : List PlayerRanks} {now : ℤ} {days rank : ℕ}

theorem mem_shownHolders {h : Holder} : h ∈ shownHolders casefold settings now days rank players ↔
    ∃ p ∈ players, playedIds rank p.chars ≠ [] ∧ shownFor casefold settings now days p.npid p.savedUtc ∧
      h = holderAt (placeAmong players p) p (playedIds rank p.chars) := by
  unfold shownHolders holdersAt
  rw [(sortedBy_perm _ _).mem_iff,List.mem_filter]
  constructor
  · rintro ⟨hmem,hshown⟩
    obtain ⟨p,hp,rfl⟩ := List.mem_map.mp hmem
    obtain ⟨hp,hplayed⟩ := List.mem_filter.mp hp
    exact ⟨p,hp,of_decide_eq_true hplayed,hshown,rfl⟩
  · rintro ⟨p,hp,hplayed,hshown,rfl⟩
    exact ⟨List.mem_map_of_mem (List.mem_filter.mpr ⟨hp,decide_eq_true hplayed⟩),hshown⟩

theorem nodup_shownHolders (hnpids : (players.map (·.npid)).Nodup) :
    ((shownHolders casefold settings now days rank players).map (·.npid)).Nodup := by
  apply ((sortedBy_perm _ _).map _).nodup_iff.mpr
  have hsublist : (((holdersAt rank players).filter fun h => shownFor casefold settings now days h.npid h.savedUtc).map
      (·.npid)).Sublist ((holdersAt rank players).map (·.npid)) := List.filter_sublist.map _
  apply List.Nodup.sublist hsublist
  unfold holdersAt
  rw [List.map_map]
  exact hnpids.sublist (List.filter_sublist.map _)

theorem playedIds_ne_nil {chars : List RankedChar} : playedIds rank chars ≠ [] ↔ ∃ c ∈ chars, playedAt rank c := by
  unfold playedIds
  rw [Ne,List.map_eq_nil_iff,List.filter_eq_nil_iff]
  simp

theorem mem_boardPlayers {p : PlayerRanks} (hp : p ∈ players) (hchars : p.chars ≠ [])
    (hshown : shownFor casefold settings now days p.npid p.savedUtc) :
    trimmed p ∈ placing (boardPlayers casefold settings now days players) := by
  apply List.mem_filter.mpr
  exact ⟨List.mem_filter.mpr ⟨List.mem_map_of_mem hp,hshown⟩,decide_eq_true (topTwo_ne_nil hchars)⟩

theorem boardEntry_of_npid (hnpids : (players.map (·.npid)).Nodup) {p : PlayerRanks} (hp : p ∈ players) {e : BoardEntry}
    (he : e ∈ currentRankBoard casefold (boardPlayers casefold settings now days players))
    (hname : e.username = p.npid) :
    e.rank = placeIn standing (placing (boardPlayers casefold settings now days players)) (trimmed p) := by
  obtain ⟨q,hq,rfl⟩ := mem_currentRankBoard.mp he
  have hmem := (List.mem_filter.mp (List.mem_filter.mp hq).1).1
  have hsame : q = trimmed p := by
    apply List.inj_on_of_nodup_map (map_npid_trimmed players ▸ hnpids) hmem (List.mem_map_of_mem hp)
    exact hname
  rw [hsame]
  rfl

end

/-- What may be relied on in the holders listed beside a leaderboard. -/
structure Listed (casefold : String → String) (settings : Settings) (now : ℤ) (days rank : ℕ)
    (players : List PlayerRanks) (board : List BoardEntry) (listed : List HolderOut) : Prop where
  who : ∀ npid, npid ∈ listed.map (·.username) ↔ ∃ p ∈ players, p.npid = npid ∧
    settings.isRankingExcluded casefold npid = false ∧ now - days * day ≤ p.savedUtc ∧ ∃ c ∈ p.chars, playedAt rank c
  once : (listed.map (·.username)).Nodup
  entry : ∀ h ∈ listed, ∃ p ∈ players, h.username = p.npid ∧ h.savedAt = p.savedUtc ∧ h.accountRank = p.accountRank ∧
    h.chars.map (·.id) = playedIds rank p.chars ∧ ∀ c ∈ h.chars, ttt2Characters[c.id]? = some c.character
  onBoard : ∀ h ∈ listed, ∃ e ∈ board, e.username = h.username
  ordered : listed.Pairwise fun h h' => ∀ e ∈ board, ∀ e' ∈ board, e.username = h.username → e'.username = h'.username →
    e'.rank < e.rank ∨ e'.rank = e.rank ∧ casefold h.username ≤ casefold h'.username

section
variable {players : List PlayerRanks} {now : ℤ} {days rank : ℕ}

theorem shownHolders_ordered (hnpids : (players.map (·.npid)).Nodup) :
    (shownHolders casefold settings now days rank players).Pairwise fun h h' =>
      ∀ e ∈ currentRankBoard casefold (boardPlayers casefold settings now days players),
      ∀ e' ∈ currentRankBoard casefold (boardPlayers casefold settings now days players),
        e.username = h.npid → e'.username = h'.npid →
          e'.rank < e.rank ∨ e'.rank = e.rank ∧ casefold h.npid ≤ casefold h'.npid := by
  have hsorted := pairwise_sortedBy (fun h : Holder => toLex (-(h.place : ℤ),casefold h.npid))
    ((holdersAt rank players).filter fun h => shownFor casefold settings now days h.npid h.savedUtc)
  refine hsorted.imp_of_mem ?_
  intro h h' hh hh' hle e he e' he' hname hname'
  obtain ⟨p,hp,hplayed,hshown,rfl⟩ := mem_shownHolders.mp hh
  obtain ⟨p',hp',hplayed',hshown',rfl⟩ := mem_shownHolders.mp hh'
  have hchars {q : PlayerRanks} (h : playedIds rank q.chars ≠ []) : q.chars ≠ [] := by
    obtain ⟨c,hc,_⟩ := playedIds_ne_nil.mp h
    exact List.ne_nil_of_mem hc
  have hall := trimmed_placing hp (hchars hplayed)
  have hall' := trimmed_placing hp' (hchars hplayed')
  have hleft := mem_boardPlayers hp (hchars hplayed) hshown
  have hleft' := mem_boardPlayers hp' (hchars hplayed') hshown'
  rw [boardEntry_of_npid hnpids hp he hname,boardEntry_of_npid hnpids hp' he' hname']
  rcases Prod.Lex.toLex_le_toLex.mp hle with hlt | ⟨heq,hcasefold⟩
  · have hplace : placeAmong players p' < placeAmong players p := by
      have hneg : -(placeAmong players p : ℤ) < -(placeAmong players p' : ℤ) := hlt
      omega
    exact .inl ((placeIn_lt_iff hleft' _).mpr ((placeIn_lt_iff hall' _).mp hplace))
  · have hplace : placeAmong players p' = placeAmong players p := by
      have hneg : -(placeAmong players p : ℤ) = -(placeAmong players p' : ℤ) := heq
      omega
    exact .inr ⟨(placeIn_eq_iff hleft' hleft).mpr ((placeIn_eq_iff hall' hall).mp hplace),hcasefold⟩

theorem shownHolders_listed (hnpids : (players.map (·.npid)).Nodup)
    (hids : ∀ p ∈ players, ∀ c ∈ p.chars, c.id < characterCount) : Listed casefold settings now days rank players
      (currentRankBoard casefold (boardPlayers casefold settings now days players))
      ((shownHolders casefold settings now days rank players).map shownHolder) where
  who := by
    intro npid
    rw [List.map_map,List.mem_map]
    constructor
    · rintro ⟨h,hmem,rfl⟩
      obtain ⟨p,hp,hplayed,hshown,rfl⟩ := mem_shownHolders.mp hmem
      obtain ⟨hnot,hsaved⟩ := Bool.and_eq_true_iff.mp hshown
      have hnot : settings.isRankingExcluded casefold p.npid = false := by simpa using hnot
      exact ⟨p,hp,rfl,hnot,of_decide_eq_true hsaved,playedIds_ne_nil.mp hplayed⟩
    · rintro ⟨p,hp,rfl,hnot,hsaved,hplayed⟩
      have hshown : shownFor casefold settings now days p.npid p.savedUtc :=
        Bool.and_eq_true_iff.mpr ⟨by simpa using hnot,decide_eq_true hsaved⟩
      exact ⟨_,mem_shownHolders.mpr ⟨p,hp,playedIds_ne_nil.mpr hplayed,hshown,rfl⟩,rfl⟩
  once := by
    rw [List.map_map]
    exact nodup_shownHolders hnpids
  entry := by
    intro h hh
    obtain ⟨holder,hmem,rfl⟩ := List.mem_map.mp hh
    obtain ⟨p,hp,_,_,rfl⟩ := mem_shownHolders.mp hmem
    refine ⟨p,hp,rfl,rfl,rfl,?_,?_⟩
    · unfold shownHolder
      rw [List.map_map]
      exact List.map_id _
    · intro c hc
      obtain ⟨id,hid,rfl⟩ := List.mem_map.mp hc
      obtain ⟨char,hchar,rfl⟩ := List.mem_map.mp hid
      exact getElem?_ttt2Characters (hids p hp char (List.mem_filter.mp hchar).1)
  onBoard := by
    intro h hh
    obtain ⟨holder,hmem,rfl⟩ := List.mem_map.mp hh
    obtain ⟨p,hp,hplayed,hshown,rfl⟩ := mem_shownHolders.mp hmem
    obtain ⟨c,hc,_⟩ := playedIds_ne_nil.mp hplayed
    have hleft := mem_boardPlayers hp (List.ne_nil_of_mem hc) hshown
    exact ⟨_,mem_currentRankBoard.mpr ⟨_,hleft,rfl⟩,rfl⟩
  ordered := List.pairwise_map.mpr (shownHolders_ordered hnpids)

theorem uncachedHolders_ok (hread : server.readRanks = .ok players) (hnpids : (players.map (·.npid)).Nodup)
    (hids : ∀ p ∈ players, ∀ c ∈ p.chars, c.id < characterCount) (hrank : rank ∈ holderRanks) {rankName : TekkenRank}
    (hname : tekkenRanks[rank]? = some rankName) (top : ℕ) :
    uncachedHolders casefold settings server now rank top days = .ok ⟨rank,rankName.name,
      ((shownHolders casefold settings now days rank players).map shownHolder).length,
      ((shownHolders casefold settings now days rank players).map shownHolder).take top⟩ := by
  obtain ⟨views,hviews,_,hget⟩ := currentRankViews_ok casefold hread hnpids
  have hentries : ((shownHolders casefold settings now days rank players).take top).mapM holderOut =
      (.ok (((shownHolders casefold settings now days rank players).take top).map shownHolder) :
        Except (SavesError ε) (List HolderOut)) := by
    apply mapM_map
    intro h hh
    obtain ⟨p,hp,_,_,rfl⟩ := mem_shownHolders.mp (List.mem_of_mem_take hh)
    apply holderOut_ok
    intro id hid
    obtain ⟨char,hchar,rfl⟩ := List.mem_map.mp hid
    exact hids p hp char (List.mem_filter.mp hchar).1
  unfold uncachedHolders
  rw [hviews]
  change found (views.2.get? rank) >>= _ = _
  rw [hget rank hrank]
  change holdersOf casefold settings now rank top days (holdersAt rank players) = _
  unfold holdersOf
  rw [savedWithin_withoutExcluded,hname]
  change List.mapM holderOut ((shownHolders casefold settings now days rank players).take top) >>= _ = _
  rw [hentries,List.length_map,← List.map_take]
  rfl

theorem uncachedLeaderboard_ok (hread : server.readRanks = .ok players) (hnpids : (players.map (·.npid)).Nodup)
    (top : ℕ) :
    uncachedLeaderboard casefold settings server now top (some days) =
      .ok ⟨(currentRankBoard casefold (boardPlayers casefold settings now days players)).length,
        (currentRankBoard casefold (boardPlayers casefold settings now days players)).take top⟩ := by
  obtain ⟨views,hviews,hboard,_⟩ := currentRankViews_ok casefold hread hnpids
  unfold uncachedLeaderboard
  rw [hviews]
  change Except.ok (leaderboardOf casefold settings now top (some days) views.1) = _
  unfold leaderboardOf
  rw [hboard,savedWithin_withoutExcluded]
  rfl

end

end

/-- The holders of a rank are who plays there, the last on the leaderboard first, from the cache or not. -/
theorem holders_of_leaderboard {ε : Type} (casefold : String → String) (settings : Settings) {server : SaveServer ε}
    {players : List PlayerRanks} (hread : server.readRanks = .ok players) (hnpids : (players.map (·.npid)).Nodup)
    (hids : ∀ p ∈ players, ∀ c ∈ p.chars, c.id < characterCount) (now : ℤ) (days : ℕ) {rank : ℕ}
    (hrank : rank ∈ holderRanks) : ∃ rankName listed board, tekkenRanks[rank]? = some rankName ∧
      (∀ top, OnlyMisses (FromViews casefold server) (getCurrentRankHolders casefold settings server now rank top days)
        (.ok ⟨rank,rankName.name,listed.length,listed.take top⟩)) ∧
      (∀ top, OnlyMisses (FromViews casefold server)
        (getCurrentRankLeaderboard casefold settings server now top (some days))
        (.ok ⟨board.length,board.take top⟩)) ∧
      Listed casefold settings now days rank players board listed := by
  have hnamed : ∀ rank ∈ holderRanks, (tekkenRanks[rank]?).isSome := by decide
  obtain ⟨rankName,hname⟩ := Option.isSome_iff_exists.mp (hnamed rank hrank)
  refine ⟨rankName,_,_,hname,?_,?_,shownHolders_listed hnpids hids⟩
  · intro top
    rw [← uncachedHolders_ok hread hnpids hids hrank hname top]
    exact (getCurrentRankHolders_gives now rank top days).onlyMisses
  · intro top
    rw [← uncachedLeaderboard_ok hread hnpids top]
    exact (getCurrentRankLeaderboard_gives now top (some days)).onlyMisses

/-- One player with two characters at the rank, and one whose only character was never played. -/
def twoSaves : SaveServer Unit := ⟨fun _ => .ok none,
  .ok [⟨"lars",0,20,[⟨0,"Paul",12,"3rd dan","숫자단",1,1,3,2⟩,⟨11,"Kuma",12,"3rd dan","숫자단",0,0,0,1⟩]⟩,
    ⟨"asuka",0,20,[⟨24,"Asuka",12,"3rd dan","숫자단",0,0,0,0⟩]⟩]⟩

theorem holders_of_leaderboard_twoSaves : ∃ players, twoSaves.readRanks = .ok players ∧
    ∃ rankName listed board, tekkenRanks[12]? = some rankName ∧
      (∀ top, OnlyMisses (FromViews id twoSaves) (getCurrentRankHolders id ⟨["bob"],none⟩ twoSaves 0 12 top 30)
        (.ok ⟨12,rankName.name,listed.length,listed.take top⟩)) ∧
      (∀ top, OnlyMisses (FromViews id twoSaves) (getCurrentRankLeaderboard id ⟨["bob"],none⟩ twoSaves 0 top (some 30))
        (.ok ⟨board.length,board.take top⟩)) ∧
      Listed id ⟨["bob"],none⟩ 0 30 12 players board listed :=
  ⟨_,rfl,holders_of_leaderboard id ⟨["bob"],none⟩ rfl (by decide) (by decide) 0 30 (by decide)⟩

end Tag2now.Saves
