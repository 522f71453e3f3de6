import Mathlib.Data.List.DropRight
import Mathlib.Data.List.Infix
import Mathlib.Data.List.Sort
import Mathlib.Tactic.Common

/-! # The newest of a list

The last items of a list that only grows at its end: as a bounded buffer keeps them, and as
a sorted query with a limit finds them.
-/
namespace Collections
variable {α : Type} {k : ℕ} {xs ys : List α}

theorem rtake_suffix (k : ℕ) (xs : List α) : xs.rtake k <:+ xs := List.drop_suffix _ _

theorem length_rtake (k : ℕ) (xs : List α) : (xs.rtake k).length = min k xs.length := by
  rw [List.rtake,List.length_drop]
  omega

theorem rtake_of_length_le (h : xs.length ≤ k) : xs.rtake k = xs := by
  rw [List.rtake,Nat.sub_eq_zero_of_le h,List.drop_zero]

theorem suffix_rtake (h : ys <:+ xs) (hlength : ys.length ≤ k) : ys <:+ xs.rtake k := by
  apply List.suffix_of_suffix_length_le h (rtake_suffix k xs)
  have hle := h.length_le
  rw [length_rtake]
  omega

/-- A full buffer loses what is out of the newest anyway. -/
theorem rtake_rtake_append (x : α) : (xs.rtake k ++ [x]).rtake k = (xs ++ [x]).rtake k := by
  cases k with
  | zero => simp
  | succ k =>
    have hinner : (xs.rtake (k + 1)).rtake k = xs.rtake k := by
      simp only [List.rtake,List.length_drop,List.drop_drop]
      congr 1
      omega
    rw [List.rtake_concat_succ,List.rtake_concat_succ,hinner]

/-- The newest of those that have what all later ones have too. -/
theorem filter_rtake {p : α → Bool} (h : xs.Pairwise fun a b => p a = true → p b = true) :
    (xs.rtake k).filter p = (xs.filter p).rtake k := by
  induction xs using List.reverseRecOn generalizing k with
  | nil => simp
  | append_singleton xs x ih =>
    obtain ⟨hxs,-,hlast⟩ := List.pairwise_append.mp h
    cases k with
    | zero => simp
    | succ k =>
      rw [List.rtake_concat_succ,List.filter_append,List.filter_append,ih hxs]
      cases hx : p x with
      | true =>
        have hone : [x].filter p = [x] := by simp [hx]
        rw [hone,List.rtake_concat_succ]
      | false =>
        have hnone : xs.filter p = [] := by
          apply List.filter_eq_nil_iff.mpr
          intro a ha hpa
          rw [hlast a ha x List.mem_cons_self hpa] at hx
          cases hx
        simp [hnone,hx]

/-- The first of a descending order, turned round. -/
theorem reverse_take_mergeSort {key : α → ℕ} (h : xs.Pairwise fun a b => key a < key b) :
    ((xs.mergeSort fun a b => key b ≤ key a).take k).reverse = xs.rtake k := by
  have hnodup : (xs.map key).Nodup := List.pairwise_map.mpr (h.imp fun hlt => Nat.ne_of_lt hlt)
  have hsorted : (xs.mergeSort fun a b => key b ≤ key a) = xs.reverse := by
    have hreverse : xs.reverse.Pairwise fun a b => decide (key b ≤ key a) = true := by
      apply List.pairwise_reverse.mpr
      exact h.imp fun hlt => decide_eq_true (Nat.le_of_lt hlt)
    have hperm : (xs.mergeSort fun a b => key b ≤ key a).Perm xs.reverse :=
      (List.mergeSort_perm _ _).trans (List.reverse_perm xs).symm
    apply hperm.eq_of_pairwise _ (List.pairwise_mergeSort _ _ _) hreverse
    · intro a b ha hb hab hba
      rw [List.mem_mergeSort] at ha
      rw [List.mem_reverse] at hb
      have hkey : key a = key b := by
        simp only [decide_eq_true_eq] at hab hba
        omega
      exact List.inj_on_of_nodup_map hnodup ha hb hkey
    · intro a b c hab hbc
      simp only [decide_eq_true_eq] at *
      omega
    · intro a b
      simp only [Bool.or_eq_true,decide_eq_true_eq]
      omega
  rw [hsorted,List.rtake_eq_reverse_take_reverse]

end Collections
