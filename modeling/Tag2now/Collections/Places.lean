import Mathlib.Data.Prod.Lex
import Mathlib.Data.List.Sort
import Mathlib.Data.List.SplitBy
import Mathlib.Data.String.Basic

/-! # Sorting by a key, and places in a ranking -/
namespace Collections
variable {α κ ν : Type} [LinearOrder κ] [LinearOrder ν]

def sortedBy (key : α → κ) (xs : List α) : List α := xs.mergeSort fun a b => key a ≤ key b

/-- Equal standings next to each other share a place, and the next one skips as many. -/
def placed (standing : α → κ) (sorted : List α) : List (ℕ × α) :=
  ((sorted.splitBy fun a b => standing a = standing b).foldl (fun board tied =>
    (board.1 ++ tied.map fun a => (board.2,a),board.2 + tied.length)) (([] : List (ℕ × α)),1)).1

theorem sortedBy_perm (key : α → κ) (xs : List α) : (sortedBy key xs).Perm xs := List.mergeSort_perm _ _

theorem pairwise_sortedBy (key : α → κ) (xs : List α) : (sortedBy key xs).Pairwise fun a b => key a ≤ key b := by
  have htrans (a b c : α) (hab : decide (key a ≤ key b) = true) (hbc : decide (key b ≤ key c) = true) :
      decide (key a ≤ key c) = true := decide_eq_true ((of_decide_eq_true hab).trans (of_decide_eq_true hbc))
  have htotal (a b : α) : (decide (key a ≤ key b) || decide (key b ≤ key a)) = true := by
    rw [Bool.or_eq_true]
    exact (le_total (key a) (key b)).imp decide_eq_true decide_eq_true
  exact (List.pairwise_mergeSort htrans htotal xs).imp of_decide_eq_true

theorem ascending_of_nodup {xs : List κ} (hsorted : xs.Pairwise (· ≤ ·)) (hnodup : xs.Nodup) : xs.Pairwise (· < ·) :=
  (hsorted.and hnodup).imp fun h => lt_of_le_of_ne h.1 h.2

/-- Elements with distinct keys are sorted the same in whatever order they come. -/
theorem sortedBy_congr {key : α → κ} {xs ys : List α} (h : xs.Perm ys) (hkeys : (xs.map key).Nodup) :
    sortedBy key xs = sortedBy key ys := by
  have hperm := ((sortedBy_perm key xs).trans h).trans (sortedBy_perm key ys).symm
  refine hperm.eq_of_pairwise ?_ (pairwise_sortedBy key xs) (pairwise_sortedBy key ys)
  intro a b ha hb hab hba
  have hmem : b ∈ xs := h.mem_iff.mpr ((sortedBy_perm key ys).mem_iff.mp hb)
  exact List.inj_on_of_nodup_map hkeys ((sortedBy_perm key xs).mem_iff.mp ha) hmem (le_antisymm hab hba)

/-! ## Places -/

/-- One more than how many stand strictly better. -/
def placeIn (standing : α → κ) (xs : List α) (a : α) : ℕ := 1 + xs.countP fun b => standing b < standing a

/-- Every one has their place, in order of place and of name. -/
structure CompetitionRanking (standing : α → κ) (name : α → ν) (xs : List α) (board : List (ℕ × α)) : Prop where
  perm : (board.map Prod.snd).Perm xs
  place : ∀ e ∈ board, e.1 = placeIn standing xs e.2
  ordered : board.Pairwise fun e f => e.1 < f.1 ∨ e.1 = f.1 ∧ name e.2 < name f.2

/-- The groups of a sorted list, each of one standing and strictly better than what is behind it. -/
inductive Grouped (standing : α → κ) : List (List α) → Prop
  | nil : Grouped standing []
  | cons {tied : List α} {groups : List (List α)} : (∀ a ∈ tied, ∀ b ∈ tied, standing a = standing b) →
      (∀ a ∈ tied, ∀ b ∈ groups.flatten, standing a < standing b) → Grouped standing groups →
      Grouped standing (tied :: groups)

theorem grouped_of_isChain {standing : α → κ} {groups : List (List α)}
    (hsorted : groups.flatten.Pairwise fun a b => standing a ≤ standing b)
    (htied : ∀ tied ∈ groups, tied.IsChain fun a b => decide (standing a = standing b))
    (hapart : groups.IsChain fun g g' => ∃ hg hg', decide (standing (g.getLast hg) = standing (g'.head hg')) = false) :
    Grouped standing groups := by
  induction groups with
  | nil => exact .nil
  | cons tied groups ih =>
    rw [List.flatten_cons,List.pairwise_append] at hsorted
    obtain ⟨hfirst,hrest,hbetween⟩ := hsorted
    have htrans : IsTrans α fun a b => standing a = standing b := ⟨fun _ _ _ => Eq.trans⟩
    have hpairs := ((htied tied List.mem_cons_self).imp fun _ _ => of_decide_eq_true).pairwise
    have hequal : ∀ a ∈ tied, ∀ b ∈ tied, standing a = standing b := by
      intro a ha b hb
      let R := fun a b : α => standing a = standing b
      have hflip : tied.Pairwise (flip R) := hpairs.imp Eq.symm
      exact List.Pairwise.forall_of_forall_of_flip (R := R) (fun _ _ => rfl) hpairs hflip ha hb
    refine .cons hequal ?_ (ih hrest (fun g hg => htied g (List.mem_cons_of_mem _ hg)) hapart.tail)
    intro a ha b hb
    cases groups with
    | nil => cases hb
    | cons next groups =>
      obtain ⟨⟨hlast,hhead,hne⟩,_⟩ := List.isChain_cons_cons.mp hapart
      have hmem : next.head hhead ∈ (next :: groups).flatten := List.mem_append_left _ (List.head_mem hhead)
      have hle : standing (next.head hhead) ≤ standing b := by
        rw [List.flatten_cons,← List.cons_head_tail hhead,List.cons_append] at hb hrest
        rcases List.mem_cons.mp hb with rfl | hb
        · exact le_refl _
        · exact (List.pairwise_cons.mp hrest).1 b hb
      have hne' : standing a ≠ standing (next.head hhead) := by
        rw [hequal a ha _ (List.getLast_mem hlast)]
        exact of_decide_eq_false hne
      exact (lt_of_le_of_ne (hbetween a ha _ hmem) hne').trans_le hle

theorem grouped_splitBy {standing : α → κ} {sorted : List α} (h : sorted.Pairwise fun a b => standing a ≤ standing b) :
    Grouped standing (sorted.splitBy fun a b => standing a = standing b) := by
  apply grouped_of_isChain
  · rw [List.flatten_splitBy]
    exact h
  · exact fun tied => List.isChain_of_mem_splitBy
  · exact List.isChain_getLast_head_splitBy (fun a b => decide (standing a = standing b)) sorted

/-- The counter that runs over the groups is the count of those that stand better. -/
theorem Grouped.foldl {standing : α → κ} {groups : List (List α)} (h : Grouped standing groups)
    (board : List (ℕ × α)) (place : ℕ) :
    groups.foldl (fun board tied => (board.1 ++ tied.map fun a => (board.2,a),board.2 + tied.length)) (board,place) =
      (board ++ groups.flatten.map fun a => (place + groups.flatten.countP fun b => standing b < standing a,a),
        place + groups.flatten.length) := by
  induction h generalizing board place with
  | nil => simp
  | @cons tied groups hequal hbetter _ ih =>
    have hnone (a : α) (ha : a ∈ tied) : (tied ++ groups.flatten).countP (fun b => standing b < standing a) = 0 := by
      apply List.countP_eq_zero.mpr
      intro b hb
      rcases List.mem_append.mp hb with hb | hb
      · simp [hequal b hb a ha]
      · simp [(hbetter a ha b hb).le]
    have hall (a : α) (ha : a ∈ groups.flatten) : tied.countP (fun b => standing b < standing a) = tied.length := by
      apply List.countP_eq_length.mpr
      exact fun b hb => decide_eq_true (hbetter b hb a ha)
    rw [List.foldl_cons,ih,List.flatten_cons,List.map_append,List.append_assoc,List.length_append,Nat.add_assoc]
    congr 3
    · apply List.map_congr_left
      intro a ha
      rw [hnone a ha,Nat.add_zero]
    · apply List.map_congr_left
      intro a ha
      rw [List.countP_append,hall a ha,Nat.add_assoc]

theorem placed_eq {standing : α → κ} {sorted : List α} (h : sorted.Pairwise fun a b => standing a ≤ standing b) :
    placed standing sorted = sorted.map fun a => (placeIn standing sorted a,a) := by
  unfold placed
  rw [(grouped_splitBy h).foldl,List.flatten_splitBy]
  rfl

theorem placeIn_perm {xs ys : List α} (h : xs.Perm ys) (standing : α → κ) (a : α) :
    placeIn standing xs a = placeIn standing ys a := by
  unfold placeIn
  rw [h.countP_eq]

theorem placeIn_le {standing : α → κ} (xs : List α) {a b : α} (h : standing a ≤ standing b) :
    placeIn standing xs a ≤ placeIn standing xs b := by
  apply Nat.add_le_add_left
  apply List.countP_mono_left
  intro c _ hc
  exact decide_eq_true ((of_decide_eq_true hc).trans_le h)

theorem placeIn_lt_iff {standing : α → κ} {xs : List α} {a : α} (ha : a ∈ xs) (b : α) :
    placeIn standing xs a < placeIn standing xs b ↔ standing a < standing b := by
  constructor
  · intro h
    by_contra hnot
    have hle := placeIn_le xs (not_lt.mp hnot)
    omega
  · intro h
    obtain ⟨before,behind,rfl⟩ := List.append_of_mem ha
    have hbefore := placeIn_le before h.le
    have hbehind := placeIn_le behind h.le
    unfold placeIn at *
    rw [List.countP_append,List.countP_append,List.countP_cons,List.countP_cons]
    simp only [decide_eq_true h,lt_irrefl,decide_false,Bool.false_eq_true,if_true,if_false]
    omega

theorem placeIn_eq_iff {standing : α → κ} {xs : List α} {a b : α} (ha : a ∈ xs) (hb : b ∈ xs) :
    placeIn standing xs a = placeIn standing xs b ↔ standing a = standing b := by
  have hab : placeIn standing xs a < placeIn standing xs b ↔ standing a < standing b := placeIn_lt_iff ha b
  have hba : placeIn standing xs b < placeIn standing xs a ↔ standing b < standing a := placeIn_lt_iff hb a
  constructor
  · intro h
    apply le_antisymm
    · exact not_lt.mp fun hlt => by have := hba.mpr hlt; omega
    · exact not_lt.mp fun hlt => by have := hab.mpr hlt; omega
  · intro h
    rw [h] at hab hba
    simp only [lt_irrefl,iff_false] at hab hba
    omega

/-- The place of everyone is counted over all, whatever the names behind the standings. -/
theorem placed_sortedBy (standing : α → κ) (name : α → ν) (xs : List α) :
    placed standing (sortedBy (fun a => toLex (standing a,name a)) xs) =
      (sortedBy (fun a => toLex (standing a,name a)) xs).map fun a => (placeIn standing xs a,a) := by
  have hsorted := pairwise_sortedBy (fun a => toLex (standing a,name a)) xs
  rw [placed_eq (hsorted.imp fun h => (Prod.Lex.toLex_le_toLex.mp h).elim le_of_lt fun h => h.1.le)]
  apply List.map_congr_left
  intro a _
  rw [placeIn_perm (sortedBy_perm _ xs)]

section
variable {standing : α → κ} {name : α → ν} {xs ys : List α} (hnames : (xs.map name).Nodup)
include hnames

/-- Sorting by standing and by name, and placing the ties together, is a competition ranking. -/
theorem competitionRanking_placed : CompetitionRanking standing name xs
    (placed standing (sortedBy (fun a => toLex (standing a,name a)) xs)) := by
  have hperm := sortedBy_perm (fun a => toLex (standing a,name a)) xs
  have hsorted := pairwise_sortedBy (fun a => toLex (standing a,name a)) xs
  rw [placed_sortedBy]
  constructor
  · rw [List.map_map]
    exact (List.map_id _).symm ▸ hperm
  · intro e he
    obtain ⟨a,_,rfl⟩ := List.mem_map.mp he
    rfl
  · have hapart : (sortedBy (fun a => toLex (standing a,name a)) xs).Pairwise fun a b => name a ≠ name b := by
      have hsame := (hperm.map name).nodup_iff.mpr hnames
      exact List.pairwise_map.mp hsame
    apply List.pairwise_map.mpr
    apply (hsorted.and hapart).imp_of_mem
    intro a b ha hb ⟨hle,hne⟩
    have ha := hperm.mem_iff.mp ha
    have hb := hperm.mem_iff.mp hb
    rcases Prod.Lex.toLex_le_toLex.mp hle with hlt | ⟨heq,hname⟩
    · exact .inl ((placeIn_lt_iff ha b).mpr hlt)
    · exact .inr ⟨(placeIn_eq_iff ha hb).mpr heq,lt_of_le_of_ne hname hne⟩

theorem sortedBy_named (h : xs.Perm ys) :
    sortedBy (fun a => toLex (standing a,name a)) xs = sortedBy (fun a => toLex (standing a,name a)) ys := by
  apply sortedBy_congr h
  apply List.Nodup.of_map fun key : κ ×ₗ ν => (ofLex key).2
  rw [List.map_map]
  exact hnames

end

end Collections
