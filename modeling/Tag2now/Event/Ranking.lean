import Tag2now.Event.Judging

/-! # The current-rank board and the event's achievers are ranked by one law

Each lists who may be on it once, in place and then by name, and a place is one more than
the number of those who stand strictly better.
-/
namespace Tag2now.Event
open Collections Saves

theorem achiever?_eq_some {standing : Standing} {a : Achiever} :
    achiever? standing = some a ↔ a.standing = standing := by
  unfold achiever?
  split
  · rename_i hnone
    constructor
    · intro h
      cases h
    · rintro rfl
      rw [a.best_eq] at hnone
      cases hnone
  · rename_i best hbest
    constructor
    · intro h
      cases h
      rfl
    · rintro rfl
      obtain ⟨standing,best',hbest'⟩ := a
      obtain rfl : best = best' := Option.some.inj (hbest.symm.trans hbest')
      rfl

theorem achievers_standings (standings : List Standing) :
    (standings.filterMap achiever?).map Achiever.standing = standings.filter fun s => s.slots.any Slot.achieved := by
  induction standings with
  | nil => rfl
  | cons standing standings ih =>
    cases h : achiever? standing with
    | none =>
      have hbest : standing.best = none := by
        by_contra hne
        obtain ⟨best,hbest⟩ := Option.ne_none_iff_exists'.mp hne
        have hsome : achiever? standing = some ⟨standing,best,hbest⟩ := achiever?_eq_some.mpr rfl
        rw [h] at hsome
        cases hsome
      have hnot : ¬ (standing.slots.any Slot.achieved = true) := by
        rw [List.any_eq_true]
        rintro ⟨s,hs,hachieved⟩
        rw [standing.best_eq_none_iff.mp hbest s hs] at hachieved
        cases hachieved
      rw [List.filterMap_cons_none h,List.filter_cons,if_neg hnot,ih]
    | some a =>
      obtain rfl := achiever?_eq_some.mp h
      obtain ⟨hslot,hachieved,_⟩ := Standing.best_spec a.best_eq
      have hany : a.standing.slots.any Slot.achieved = true := List.any_eq_true.mpr ⟨a.best,hslot,hachieved⟩
      rw [List.filterMap_cons_some h,List.filter_cons,if_pos hany,List.map_cons,ih]

section
variable {casefold : String → String} {settings : Settings}

/-- The players of a request: the excluded and those who have not played for long are not on the board. -/
def recent (casefold : String → String) (settings : Settings) (days : Option ℕ) (now : ℤ)
    (players : List PlayerRanks) : List PlayerRanks :=
  savedWithin (·.savedUtc) (withoutExcluded casefold settings (·.npid) players) days now

theorem savedWithin_perm {α : Type} {xs ys : List α} (h : xs.Perm ys) (savedUtc : α → ℤ) (days : Option ℕ) (now : ℤ) :
    (savedWithin savedUtc xs days now).Perm (savedWithin savedUtc ys days now) := by
  cases days with
  | none => exact h
  | some days => exact h.filter _

theorem recent_perm {players players' : List PlayerRanks} (h : players.Perm players') (days : Option ℕ) (now : ℤ) :
    (recent casefold settings days now players).Perm (recent casefold settings days now players') :=
  savedWithin_perm (h.filter _) _ _ _

theorem filter_named {players : List PlayerRanks} (h : (players.map fun p => casefold p.npid).Nodup)
    (p : PlayerRanks → Bool) :
    ((players.filter p).map fun p => casefold p.npid).Nodup :=
  h.sublist (List.filter_sublist.map _)

theorem achievers_named {standings : List Standing} (h : (standings.map fun s => casefold s.baseline.npid).Nodup) :
    ((standings.filterMap achiever?).map fun a => casefold a.standing.baseline.npid).Nodup := by
  have hsublist := (List.filter_sublist (p := fun s : Standing => s.slots.any Slot.achieved) (l := standings)).map
    fun s => casefold s.baseline.npid
  rw [← achievers_standings,List.map_map] at hsublist
  exact h.sublist hsublist

end

/-- Both boards are competition rankings, in whatever order the players come. -/
theorem boards_competitionRanking (casefold : String → String) :
    (∀ (settings : Settings) (days : Option ℕ) (now : ℤ) (players : List PlayerRanks),
      ((recent casefold settings days now players).map fun p => casefold p.npid).Nodup →
      (∃ board, currentRankBoard casefold (recent casefold settings days now players) =
          board.map (fun e => boardEntry e.1 e.2) ∧
        (currentRankBoard casefold (recent casefold settings days now players)).map
          (fun row => (row.rank,row.username)) =
          board.map (fun e => (e.1,e.2.npid)) ∧
        CompetitionRanking standing (fun p => casefold p.npid)
          ((recent casefold settings days now players).filter fun p => p.chars ≠ []) board) ∧
      ∀ players', players.Perm players' → currentRankBoard casefold (recent casefold settings days now players') =
        currentRankBoard casefold (recent casefold settings days now players)) ∧
    ∀ standings : List Standing, (standings.map fun s => casefold s.baseline.npid).Nodup →
      ((standings.filterMap achiever?).map Achiever.standing = standings.filter fun s => s.slots.any Slot.achieved) ∧
      (∀ a ∈ standings.filterMap achiever?, a.best ∈ a.standing.slots ∧ a.best.achieved ∧
        ∀ s ∈ a.standing.slots, s.achieved → s.gain ≤ a.best.gain) ∧
      CompetitionRanking (fun a : Achiever => -a.best.gain) (fun a => casefold a.standing.baseline.npid)
        (standings.filterMap achiever?) (achievers casefold standings) ∧
      ∀ standings', standings.Perm standings' → achievers casefold standings' = achievers casefold standings := by
  constructor
  · intro settings days now players hnames
    have heligible := filter_named hnames fun p => p.chars ≠ []
    refine ⟨⟨_,rfl,List.map_map,competitionRanking_placed heligible⟩,?_⟩
    intro players' h
    have hrecent : (recent casefold settings days now players).Perm (recent casefold settings days now players') :=
      recent_perm h days now
    have hperm := hrecent.filter fun p => p.chars ≠ []
    unfold currentRankBoard
    rw [sortedBy_named heligible hperm]
  · intro standings hnames
    have heligible := achievers_named hnames
    refine ⟨achievers_standings standings,fun a _ => Standing.best_spec a.best_eq,
      competitionRanking_placed heligible,?_⟩
    intro standings' h
    unfold achievers
    rw [sortedBy_named heligible (h.filterMap achiever?)]

def tiedPlayers : List PlayerRanks :=
  [⟨"lars",0,20,pauls.take 1⟩,⟨"asuka",0,20,pauls.take 1⟩,⟨"jin",0,20,pauls⟩,⟨"bob",0,20,[]⟩]

def twoStandings : List Standing :=
  [⟨beginner,[⟨⟨0,Nat.zero_lt_succ 58⟩,true,0,3,4,true⟩]⟩,⟨{ beginner with npid := "lars" },[]⟩]

theorem boards_competitionRanking_tied :
    (∃ board, currentRankBoard id (recent id ⟨["jin"],none⟩ (some 1) 0 tiedPlayers) =
        board.map (fun e => boardEntry e.1 e.2) ∧
      (currentRankBoard id (recent id ⟨["jin"],none⟩ (some 1) 0 tiedPlayers)).map (fun row => (row.rank,row.username)) =
        board.map (fun e => (e.1,e.2.npid)) ∧
      CompetitionRanking standing (fun p => id p.npid)
        ((recent id ⟨["jin"],none⟩ (some 1) 0 tiedPlayers).filter fun p => p.chars ≠ []) board) ∧
    CompetitionRanking (fun a : Achiever => -a.best.gain) (fun a => id a.standing.baseline.npid)
      (twoStandings.filterMap achiever?) (achievers id twoStandings) :=
  ⟨((boards_competitionRanking id).1 ⟨["jin"],none⟩ (some 1) 0 tiedPlayers (by decide)).1,
    ((boards_competitionRanking id).2 twoStandings (by decide)).2.2.1⟩

end Tag2now.Event
