import Mathlib.Algebra.BigOperators.Group.List.Basic
import Mathlib.Algebra.GroupWithZero.Nat
import Mathlib.Data.List.Dedup
import Mathlib.Data.List.Nodup

/-! # Queries over lists of rows

`GROUP BY` gives one group for every key there is, and a full outer join of two tables
with one row a key gives one row for every key of either.
-/
namespace Collections
variable {α β κ : Type} [DecidableEq κ]

section GroupBy

def rowsOf (key : α → κ) (rows : List α) (k : κ) : List α := rows.filter fun a => key a = k

/-- `GROUP BY`. -/
def groupBy (key : α → κ) (rows : List α) : List (κ × List α) :=
  (rows.map key).dedup.map fun k => (k,rowsOf key rows k)

variable {key : α → κ} {rows : List α}

theorem groupBy_keys : (groupBy key rows).map Prod.fst = (rows.map key).dedup := by
  unfold groupBy
  rw [List.map_map]
  exact List.map_id _

theorem mem_groupBy {g : κ × List α} : g ∈ groupBy key rows ↔
    (∃ a ∈ rows, key a = g.1) ∧ g.2 = rowsOf key rows g.1 := by
  unfold groupBy
  rw [List.mem_map]
  constructor
  · rintro ⟨k,hk,rfl⟩
    exact ⟨List.mem_map.mp (List.mem_dedup.mp hk),rfl⟩
  · rintro ⟨hkey,hrows⟩
    exact ⟨g.1,List.mem_dedup.mpr (List.mem_map.mpr hkey),Prod.ext rfl hrows.symm⟩

theorem flatMap_rowsOf_perm {ks : List κ} (hks : ks.Nodup) (hall : ∀ a ∈ rows, key a ∈ ks) :
    (ks.flatMap (rowsOf key rows)).Perm rows := by
  induction ks generalizing rows with
  | nil =>
    have hnone : rows = [] := List.eq_nil_iff_forall_not_mem.mpr fun a ha => List.not_mem_nil (hall a ha)
    rw [hnone]
    exact List.Perm.refl _
  | cons k ks ih =>
    obtain ⟨hnew,hrest⟩ := List.nodup_cons.mp hks
    have hothers : ks.flatMap (rowsOf key rows) =
        ks.flatMap (rowsOf key (rows.filter fun a => !decide (key a = k))) := by
      apply List.flatMap_congr
      intro k' hk'
      unfold rowsOf
      rw [List.filter_filter]
      apply List.filter_congr
      intro a _
      by_cases hkey : key a = k'
      · have hne : k' ≠ k := fun h => hnew (h ▸ hk')
        simp [hkey,hne]
      · simp [hkey]
    have hkeys : ∀ a ∈ rows.filter (fun a => !decide (key a = k)), key a ∈ ks := by
      intro a ha
      obtain ⟨ha,hne⟩ := List.mem_filter.mp ha
      exact (List.mem_cons.mp (hall a ha)).resolve_left (by simpa using hne)
    rw [List.flatMap_cons,hothers]
    exact ((ih hrest hkeys).append_left _).trans (List.filter_append_perm _ rows)

theorem groupBy_perm : ((groupBy key rows).flatMap Prod.snd).Perm rows := by
  unfold groupBy
  rw [List.flatMap_map]
  exact flatMap_rowsOf_perm (List.nodup_dedup _) fun a ha => List.mem_dedup.mpr (List.mem_map_of_mem ha)

theorem sum_countP_groupBy (p : α → Bool) : ((groupBy key rows).map fun g => g.2.countP p).sum = rows.countP p := by
  have hperm : ((groupBy key rows).flatMap Prod.snd).Perm rows := groupBy_perm
  have hcount := hperm.countP_eq p
  rw [List.countP_flatMap] at hcount
  exact hcount

end GroupBy

theorem rowsOf_unique {ky : β → κ} {ys : List β} (hys : (ys.map ky).Nodup) {y : β} (hy : y ∈ ys) :
    rowsOf ky ys (ky y) = [y] := by
  unfold rowsOf
  induction ys with
  | nil => cases hy
  | cons z zs ih =>
    obtain ⟨hnew,hrest⟩ := List.nodup_cons.mp hys
    rcases List.mem_cons.mp hy with rfl | hy
    · have hnone : zs.filter (fun z => ky z = ky y) = [] := by
        apply List.filter_eq_nil_iff.mpr
        intro z hz hkey
        exact hnew (List.mem_map.mpr ⟨z,hz,of_decide_eq_true hkey⟩)
      rw [List.filter_cons_of_pos (by simp),hnone]
    · have hne : ky z ≠ ky y := fun hkey => hnew (hkey ▸ List.mem_map_of_mem hy)
      rw [List.filter_cons_of_neg (by simpa using hne)]
      exact ih hrest hy

section InnerJoin

/-- `JOIN .. ON ky = kx`, where the left key may be null. -/
def innerJoin (kx : α → Option κ) (ky : β → κ) (xs : List α) (ys : List β) : List (α × β) :=
  xs.flatMap fun x => (ys.filter fun y => kx x = some (ky y)).map fun y => (x,y)

variable {kx : α → Option κ} {ky : β → κ} {xs : List α} {ys : List β}

theorem map_fst_innerJoin (hys : (ys.map ky).Nodup) (hall : ∀ x ∈ xs, ∃ y ∈ ys, kx x = some (ky y)) :
    (innerJoin kx ky xs ys).map Prod.fst = xs := by
  have hone : ∀ x ∈ xs, ((ys.filter fun y => kx x = some (ky y)).map fun y => (x,y)).map Prod.fst = [x] := by
    intro x hx
    obtain ⟨y,hy,hkey⟩ := hall x hx
    have hrows := rowsOf_unique hys hy
    unfold rowsOf at hrows
    simp only [hkey,Option.some.injEq,eq_comm (a := ky y),hrows]
    rfl
  unfold innerJoin
  rw [List.map_flatMap,List.flatMap_congr hone,List.flatMap_singleton']

theorem filter_innerJoin (p : α → Bool) : (innerJoin kx ky xs ys).filter (fun row => p row.1) =
    innerJoin kx ky (xs.filter p) ys := by
  unfold innerJoin
  induction xs with
  | nil => rfl
  | cons x xs ih =>
    rw [List.flatMap_cons,List.filter_append,ih]
    cases hp : p x with
    | true =>
      have hall : ((ys.filter fun y => kx x = some (ky y)).map fun y => (x,y)).filter (fun row => p row.1) =
          (ys.filter fun y => kx x = some (ky y)).map fun y => (x,y) := by
        apply List.filter_eq_self.mpr
        intro row hrow
        obtain ⟨y,_,rfl⟩ := List.mem_map.mp hrow
        exact hp
      rw [hall,List.filter_cons_of_pos hp,List.flatMap_cons]
    | false =>
      have hnone : ((ys.filter fun y => kx x = some (ky y)).map fun y => (x,y)).filter (fun row => p row.1) = [] := by
        apply List.filter_eq_nil_iff.mpr
        intro row hrow
        obtain ⟨y,_,rfl⟩ := List.mem_map.mp hrow
        simp [hp]
      rw [hnone,List.filter_cons_of_neg (by simp [hp]),List.nil_append]

end InnerJoin

section Join
variable (kx : α → κ) (ky : β → κ)

/-- `FULL OUTER JOIN .. ON kx = ky`. -/
def fullJoin (xs : List α) (ys : List β) : List (Option α × Option β) :=
  (xs.flatMap fun x => match rowsOf ky ys (kx x) with
    | [] => [(some x,none)]
    | matched => matched.map fun y => (some x,some y)) ++
  (ys.filter fun y => ky y ∉ xs.map kx).map fun y => (none,some y)

/-- `coalesce` of the key's two columns. -/
def joinedKey (row : Option α × Option β) : Option κ := (row.1.map kx).or (row.2.map ky)

variable {kx ky} {xs : List α} {ys : List β}

theorem rowsOf_eq_nil_iff {k : κ} : rowsOf ky ys k = [] ↔ k ∉ ys.map ky := by
  unfold rowsOf
  rw [List.filter_eq_nil_iff]
  constructor
  · intro h hmem
    obtain ⟨y,hy,hkey⟩ := List.mem_map.mp hmem
    exact h y hy (decide_eq_true hkey)
  · intro h y hy hkey
    exact h (List.mem_map.mpr ⟨y,hy,of_decide_eq_true hkey⟩)

theorem rowsOf_keyed (hys : (ys.map ky).Nodup) (k : κ) :
    rowsOf ky ys k = [] ∨ ∃ y ∈ ys, ky y = k ∧ rowsOf ky ys k = [y] := by
  by_cases h : k ∈ ys.map ky
  · obtain ⟨y,hy,rfl⟩ := List.mem_map.mp h
    exact .inr ⟨y,hy,rfl,rowsOf_unique hys hy⟩
  · exact .inl (rowsOf_eq_nil_iff.mpr h)

/-- What is computed of every group, found under its key. -/
theorem rowsOf_groupBy {key : α → κ} {rows : List α} {f : κ × List α → β} (hf : ∀ g, ky (f g) = g.1) (k : κ) :
    rowsOf ky ((groupBy key rows).map f) k = if rowsOf key rows k = [] then [] else [f (k,rowsOf key rows k)] := by
  have hkeys : ((groupBy key rows).map f).map ky = (rows.map key).dedup := by
    rw [List.map_map,← groupBy_keys]
    apply List.map_congr_left
    exact fun g _ => hf g
  split
  · rename_i hnone
    rw [rowsOf_eq_nil_iff,hkeys,List.mem_dedup]
    exact rowsOf_eq_nil_iff.mp hnone
  · rename_i hsome
    have hkey : k ∈ rows.map key := not_not.mp fun h => hsome (rowsOf_eq_nil_iff.mpr h)
    have hmem : (k,rowsOf key rows k) ∈ groupBy key rows := mem_groupBy.mpr ⟨List.mem_map.mp hkey,rfl⟩
    have hone := rowsOf_unique (hkeys ▸ List.nodup_dedup _) (List.mem_map_of_mem (f := f) hmem)
    rw [hf] at hone
    exact hone

/-- Each row of the join is of one key: its row on either side, or none where there is none. -/
theorem mem_fullJoin (hxs : (xs.map kx).Nodup) (hys : (ys.map ky).Nodup) {row : Option α × Option β}
    (h : row ∈ fullJoin kx ky xs ys) : ∃ k, joinedKey kx ky row = some k ∧ (k ∈ xs.map kx ∨ k ∈ ys.map ky) ∧
      row.1.toList = rowsOf kx xs k ∧ row.2.toList = rowsOf ky ys k := by
  unfold fullJoin at h
  rcases List.mem_append.mp h with h | h
  · obtain ⟨x,hx,hrow⟩ := List.mem_flatMap.mp h
    have hx' := rowsOf_unique hxs hx
    refine ⟨kx x,?_,.inl (List.mem_map_of_mem hx),?_⟩
    · rcases rowsOf_keyed hys (kx x) with hnone | ⟨y,_,_,hone⟩
      · rw [hnone] at hrow
        cases List.mem_singleton.mp hrow
        rfl
      · rw [hone] at hrow
        cases List.mem_singleton.mp hrow
        rfl
    · rcases rowsOf_keyed hys (kx x) with hnone | ⟨y,_,_,hone⟩
      · rw [hnone] at hrow
        cases List.mem_singleton.mp hrow
        exact ⟨hx'.symm,hnone.symm⟩
      · rw [hone] at hrow
        cases List.mem_singleton.mp hrow
        exact ⟨hx'.symm,hone.symm⟩
  · obtain ⟨y,hy,rfl⟩ := List.mem_map.mp h
    obtain ⟨hy,hnot⟩ := List.mem_filter.mp hy
    refine ⟨ky y,rfl,.inr (List.mem_map_of_mem hy),?_,(rowsOf_unique hys hy).symm⟩
    exact (rowsOf_eq_nil_iff.mpr (of_decide_eq_true hnot)).symm

theorem fullJoin_keys (kx : α → κ) (xs : List α) (hys : (ys.map ky).Nodup) :
    (fullJoin kx ky xs ys).map (joinedKey kx ky) =
    (xs.map kx ++ (ys.map ky).filter fun k => k ∉ xs.map kx).map some := by
  have hmatched (x : α) : (match rowsOf ky ys (kx x) with
      | [] => [(some x,none)]
      | matched => matched.map fun y => (some x,some y)).map (joinedKey kx ky) = [some (kx x)] := by
    rcases rowsOf_keyed hys (kx x) with hnone | ⟨y,_,_,hone⟩
    · rw [hnone]
      rfl
    · rw [hone]
      rfl
  unfold fullJoin
  rw [List.map_append,List.map_append,List.map_flatMap]
  simp only [hmatched]
  rw [← List.map_eq_flatMap,List.filter_map,List.map_map,List.map_map,List.map_map]
  rfl

end Join

end Collections
