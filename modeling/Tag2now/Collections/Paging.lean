import Tag2now.Collections.Places

/-! # Listing a table page by page

By number, a page is cut out of rows that are sorted anew for each of them, and rows of
equal keys may come in another order each time. By cursor, a page begins behind the last
key of the one before.
-/
namespace Collections
variable {α κ : Type} [LinearOrder κ]

/-! ## Pages by number -/

def pageAt (size k : ℕ) (rows : List α) : List α := (rows.drop (k * size)).take size

/-- The rows in an order that `ORDER BY` may give. -/
structure SortedRows (key : α → κ) (xs rows : List α) : Prop where
  perm : rows.Perm xs
  sorted : rows.Pairwise fun a b => key a ≤ key b

/-- No run of equal keys goes on from the first `c` rows into the others. -/
def CutsNoTie (key : α → κ) (xs : List α) (c : ℕ) : Prop :=
  ∀ a ∈ xs, c ≤ xs.countP (fun b => key b < key a) ∨ xs.countP (fun b => key b ≤ key a) ≤ c

section ByNumber
variable {key : α → κ} {xs rows rows' : List α} {size : ℕ}

theorem le_across (hsorted : rows.Pairwise fun a b => key a ≤ key b) {c : ℕ} {a b : α} (ha : a ∈ rows.take c)
    (hb : b ∈ rows.drop c) : key a ≤ key b := by
  rw [← List.take_append_drop c rows,List.pairwise_append] at hsorted
  exact hsorted.2.2 a ha b hb

theorem countP_across (rows : List α) (c : ℕ) (p : α → Bool) :
    rows.countP p = (rows.take c).countP p + (rows.drop c).countP p := by
  rw [← List.countP_append,List.take_append_drop]

/-- The run of one of the first rows is among them, where it is not cut. -/
theorem countP_le_of_mem_take (hsorted : rows.Pairwise fun a b => key a ≤ key b) {c : ℕ} (hcut : CutsNoTie key rows c)
    {a : α} (ha : a ∈ rows.take c) : rows.countP (fun b => key b ≤ key a) ≤ c := by
  apply (hcut a (List.mem_of_mem_take ha)).resolve_left
  have hbehind : (rows.drop c).countP (fun b => key b < key a) = 0 := by
    apply List.countP_eq_zero.mpr
    intro b hb
    simpa using le_across hsorted ha hb
  have hfront : (rows.take c).countP (fun b => key b < key a) < (rows.take c).length := by
    apply lt_of_le_of_ne List.countP_le_length
    intro hall
    have hself := List.countP_eq_length.mp hall a ha
    exact lt_irrefl _ (of_decide_eq_true hself)
  have hlength := List.length_take_le c rows
  rw [countP_across rows c,hbehind]
  omega

theorem lt_countP_of_mem_drop (hsorted : rows.Pairwise fun a b => key a ≤ key b) {c : ℕ} {a : α}
    (ha : a ∈ rows.drop c) : c < rows.countP fun b => key b ≤ key a := by
  have hfront : (rows.take c).countP (fun b => key b ≤ key a) = (rows.take c).length := by
    apply List.countP_eq_length.mpr
    exact fun b hb => decide_eq_true (le_across hsorted hb ha)
  have hbehind : 0 < (rows.drop c).countP (fun b => key b ≤ key a) :=
    List.countP_pos_iff.mpr ⟨a,ha,decide_eq_true (le_refl _)⟩
  have hpos := List.length_pos_of_mem ha
  rw [List.length_drop] at hpos
  rw [countP_across rows c,hfront,List.length_take]
  omega

/-- Where no tie is cut, the first rows are those whose whole run is among them. -/
theorem take_eq_filter (hsorted : rows.Pairwise fun a b => key a ≤ key b) {c : ℕ} (hcut : CutsNoTie key rows c) :
    rows.take c = rows.filter fun a => rows.countP (fun b => key b ≤ key a) ≤ c := by
  have hfront : (rows.take c).filter (fun a => rows.countP (fun b => key b ≤ key a) ≤ c) = rows.take c :=
    List.filter_eq_self.mpr fun a ha => decide_eq_true (countP_le_of_mem_take hsorted hcut ha)
  have hbehind : (rows.drop c).filter (fun a => rows.countP (fun b => key b ≤ key a) ≤ c) = [] := by
    apply List.filter_eq_nil_iff.mpr
    intro a ha
    simpa using lt_countP_of_mem_drop hsorted ha
  calc rows.take c
      = (rows.take c).filter (fun a => rows.countP (fun b => key b ≤ key a) ≤ c) ++
        (rows.drop c).filter (fun a => rows.countP (fun b => key b ≤ key a) ≤ c) := by
        rw [hfront,hbehind,List.append_nil]
    _ = rows.filter fun a => rows.countP (fun b => key b ≤ key a) ≤ c := by
        rw [← List.filter_append,List.take_append_drop]

theorem CutsNoTie.perm {c : ℕ} (h : CutsNoTie key xs c) (hperm : rows.Perm xs) : CutsNoTie key rows c := by
  intro a ha
  rw [hperm.countP_eq,hperm.countP_eq]
  exact h a (hperm.mem_iff.mp ha)

theorem SortedRows.take_perm {c : ℕ} (h : SortedRows key xs rows) (h' : SortedRows key xs rows')
    (hcut : CutsNoTie key xs c) :
    (rows.take c).Perm (rows'.take c) := by
  have hperm := h.perm.trans h'.perm.symm
  rw [take_eq_filter h.sorted (hcut.perm h.perm),take_eq_filter h'.sorted (hcut.perm h'.perm)]
  simp only [hperm.countP_eq]
  exact hperm.filter _

theorem take_page (size k : ℕ) (rows : List α) :
    rows.take ((k + 1) * size) = rows.take (k * size) ++ pageAt size k rows := by
  unfold pageAt
  rw [Nat.succ_mul,List.take_add]

/-- Where no page ends within a tie, the first pages are the first rows. -/
theorem pages_perm {rowsAt : ℕ → List α} (hrows : ∀ k, SortedRows key xs (rowsAt k))
    (hcut : ∀ k, CutsNoTie key xs (k * size)) (m : ℕ) (h : SortedRows key xs rows) :
    ((List.range m).flatMap fun k => pageAt size k (rowsAt k)).Perm (rows.take (m * size)) := by
  induction m generalizing rows with
  | zero => simp
  | succ m ih =>
    rw [List.range_succ,List.flatMap_append,List.flatMap_singleton]
    have hfirst := (ih (hrows m)).append_right (pageAt size m (rowsAt m))
    rw [← take_page] at hfirst
    exact hfirst.trans ((hrows m).take_perm h (hcut (m + 1)))

theorem sortedRows_sortedBy (key : α → κ) (xs : List α) : SortedRows key xs (sortedBy key xs) :=
  ⟨sortedBy_perm key xs,pairwise_sortedBy key xs⟩

theorem SortedRows.tied (h : SortedRows key xs rows) {a : α} {i : ℕ} (hi : i < rows.length)
    (hlow : xs.countP (fun b => key b < key a) ≤ i) (hhigh : i < xs.countP fun b => key b ≤ key a) :
    key rows[i] = key a := by
  have hsplit := List.take_append_drop i rows
  have hdrop := List.drop_eq_getElem_cons hi
  have hsorted := h.sorted
  rw [← hsplit,hdrop,List.pairwise_append,List.pairwise_cons] at hsorted
  obtain ⟨_,⟨hbehind,_⟩,hfront⟩ := hsorted
  have hlength : (rows.take i).length = i := by
    rw [List.length_take]
    omega
  rw [← h.perm.countP_eq,← hsplit,hdrop,List.countP_append,List.countP_cons] at hlow hhigh
  apply le_antisymm
  · by_contra hlt
    have hnone : (rows.drop (i + 1)).countP (fun b => key b ≤ key a) = 0 := by
      apply List.countP_eq_zero.mpr
      intro b hb
      have hle := hbehind b hb
      simpa using (not_le.mp hlt).trans_le hle
    have hle := List.countP_le_length (p := fun b => decide (key b ≤ key a)) (l := rows.take i)
    rw [hnone,if_neg (by simpa using hlt)] at hhigh
    omega
  · by_contra hlt
    have hlt' := not_le.mp hlt
    have hall : (rows.take i).countP (fun b => key b < key a) = (rows.take i).length := by
      apply List.countP_eq_length.mpr
      intro b hb
      exact decide_eq_true ((hfront b hb rows[i] List.mem_cons_self).trans_lt hlt')
    rw [hall,if_pos (decide_eq_true hlt')] at hlow
    omega

/-- Two neighbours of one key may come the other way round. -/
theorem SortedRows.swapped {front behind : List α} {a b : α} (h : SortedRows key xs (front ++ a :: b :: behind))
    (htied : key a = key b) : SortedRows key xs (front ++ b :: a :: behind) where
  perm := ((List.Perm.swap a b behind).append_left front).trans h.perm
  sorted := by
    have hkeys : ((front ++ b :: a :: behind).map key) = (front ++ a :: b :: behind).map key := by
      simp [htied]
    have hsorted : ((front ++ a :: b :: behind).map key).Pairwise (· ≤ ·) := List.pairwise_map.mpr h.sorted
    rw [← hkeys] at hsorted
    exact List.pairwise_map.mp hsorted

theorem mem_pageAt {front behind : List α} {a : α} {k : ℕ} (hlow : k * size ≤ front.length)
    (hhigh : front.length < (k + 1) * size) : a ∈ pageAt size k (front ++ a :: behind) := by
  have hsize : (front.drop (k * size)).length < size := by
    rw [Nat.succ_mul] at hhigh
    rw [List.length_drop]
    omega
  have hpos : size - (front.drop (k * size)).length = size - (front.drop (k * size)).length - 1 + 1 := by omega
  unfold pageAt
  rw [List.drop_append_of_le_length hlow,List.take_append,hpos,List.take_succ_cons]
  exact List.mem_append_right _ List.mem_cons_self

/-- The two rows at a cut through a tie may come either way round. -/
theorem exists_swapped {a : α} {c : ℕ} (hlow : xs.countP (fun b => key b < key a) ≤ c)
    (hhigh : c + 1 < xs.countP fun b => key b ≤ key a) : ∃ front x y behind, front.length = c ∧
      SortedRows key xs (front ++ x :: y :: behind) ∧ SortedRows key xs (front ++ y :: x :: behind) := by
  have hrows := sortedRows_sortedBy key xs
  have hxs : (sortedBy key xs).length = xs.length := hrows.perm.length_eq
  have hcount := List.countP_le_length (p := fun b => decide (key b ≤ key a)) (l := xs)
  have hi : c < (sortedBy key xs).length := by omega
  have hj : c + 1 < (sortedBy key xs).length := by omega
  have hleft : key (sortedBy key xs)[c] = key a := hrows.tied hi hlow (by omega)
  have hright : key (sortedBy key xs)[c + 1] = key a := hrows.tied hj (by omega) hhigh
  have hsplit := List.take_append_drop c (sortedBy key xs)
  rw [List.drop_eq_getElem_cons hi,List.drop_eq_getElem_cons hj] at hsplit
  have hfront : ((sortedBy key xs).take c).length = c := by
    rw [List.length_take]
    omega
  have hthis : SortedRows key xs ((sortedBy key xs).take c ++ (sortedBy key xs)[c] :: (sortedBy key xs)[c + 1] ::
      (sortedBy key xs).drop (c + 1 + 1)) := hsplit.symm ▸ hrows
  exact ⟨_,_,_,_,hfront,hthis,hthis.swapped (hleft.trans hright.symm)⟩

/-- If the pages list no row twice in whatever order the ties come, none of them ends within a tie. -/
theorem cutsNoTie_of_pages (hsize : 0 < size) {m : ℕ} (hlength : xs.length ≤ m * size)
    (hpages : ∀ rowsAt : ℕ → List α, (∀ k, SortedRows key xs (rowsAt k)) →
      ((List.range m).flatMap fun k => pageAt size k (rowsAt k)).Nodup) (k : ℕ) : CutsNoTie key xs (k * size) := by
  intro a _
  by_contra h
  rw [not_or,not_le,not_le] at h
  obtain ⟨hlow,hhigh⟩ := h
  obtain _ | n := k
  · rw [Nat.zero_mul] at hlow
    exact Nat.not_lt_zero _ hlow
  have hcount := List.countP_le_length (p := fun b => decide (key b ≤ key a)) (l := xs)
  have hn : n + 1 < m := by
    by_contra hle
    have hmul := Nat.mul_le_mul_right size (not_lt.mp hle)
    omega
  rw [Nat.succ_mul] at hlow hhigh
  have hcut : n * size + (size - 1) + 1 < xs.countP fun b => key b ≤ key a := by omega
  obtain ⟨front,x,y,behind,hfront,hone,hother⟩ := exists_swapped (by omega) hcut
  let rowsAt (j : ℕ) := if j = n + 1 then front ++ y :: x :: behind else front ++ x :: y :: behind
  have hrowsAt : ∀ j, SortedRows key xs (rowsAt j) := by
    intro j
    unfold rowsAt
    split <;> assumption
  have hfirst : x ∈ pageAt size n (rowsAt n) := by
    have hpage : rowsAt n = front ++ x :: y :: behind := if_neg (by omega)
    rw [hpage]
    apply mem_pageAt
    · omega
    · rw [Nat.succ_mul]
      omega
  have hsecond : x ∈ pageAt size (n + 1) (rowsAt (n + 1)) := by
    have hpage : rowsAt (n + 1) = (front ++ [y]) ++ x :: behind := by simp [rowsAt]
    rw [hpage]
    apply mem_pageAt <;> rw [List.length_append,List.length_singleton]
    · rw [Nat.succ_mul]
      omega
    · rw [Nat.succ_mul,Nat.succ_mul]
      omega
  obtain ⟨_,hdisjoint⟩ := List.nodup_flatMap.mp (hpages rowsAt hrowsAt)
  have hlt : n < (List.range m).length := by
    rw [List.length_range]
    omega
  have hapart := List.pairwise_iff_getElem.mp hdisjoint n (n + 1) hlt
    (by rwa [List.length_range]) (Nat.lt_succ_self n)
  rw [List.getElem_range,List.getElem_range] at hapart
  exact hapart hfirst hsecond

end ByNumber

/-! ## Pages by cursor -/

/-- The keys behind a cursor, all of them where there is none. -/
def keysBehind (cursor : Option κ) (keys : List κ) : List κ := keys.filter fun k => cursor.all fun c => k < c

theorem mem_keysBehind {cursor : Option κ} {keys : List κ} {k : κ} :
    k ∈ keysBehind cursor keys ↔ k ∈ keys ∧ ∀ c ∈ cursor, k < c := by
  unfold keysBehind
  rw [List.mem_filter]
  cases cursor <;> simp

/-- A page of so many of the keys behind the cursor, and the last of them where there are more. -/
structure PageBehind (keys : List κ) (limit : ℕ) (cursor : Option κ) (shown : List κ) (next : Option κ) : Prop where
  shown : shown = (keysBehind cursor keys).take limit
  next : next = if limit < (keysBehind cursor keys).length then (keysBehind cursor keys)[limit - 1]? else none

section ByCursor
variable {P : Type} (next : P → Option κ) (request : ℕ → Option κ → P)

/-- The pages from the `n`-th request on, each asked for with the cursor of the one before. -/
inductive Follows : ℕ → Option κ → List P → Prop
  | last {n : ℕ} {cursor : Option κ} : next (request n cursor) = none → Follows n cursor [request n cursor]
  | more {n : ℕ} {cursor : Option κ} {c : κ} {pages : List P} : next (request n cursor) = some c →
      Follows (n + 1) (some c) pages → Follows n cursor (request n cursor :: pages)

variable {next request}

omit [LinearOrder κ] in
theorem Follows.unique {n : ℕ} {cursor : Option κ} {pages pages' : List P} (h : Follows next request n cursor pages)
    (h' : Follows next request n cursor pages') : pages' = pages := by
  induction h generalizing pages' with
  | last hnone =>
    cases h' with
    | last => rfl
    | more hsome =>
      rw [hnone] at hsome
      cases hsome
  | more hsome _ ih =>
    cases h' with
    | last hnone =>
      rw [hnone] at hsome
      cases hsome
    | more hsome' hrest =>
      obtain rfl := Option.some.inj (hsome.symm.trans hsome')
      rw [ih hrest]

variable {keys : List κ} (hkeys : keys.Pairwise fun a b => b < a)
include hkeys

theorem keysBehind_next {cursor : Option κ} {limit : ℕ} {c : κ} (hlimit : 0 < limit)
    (hc : (keysBehind cursor keys)[limit - 1]? = some c) : keysBehind (some c) keys =
      (keysBehind cursor keys).drop limit := by
  obtain ⟨hlt,hget⟩ := List.getElem?_eq_some_iff.mp hc
  have hmem : c ∈ keysBehind cursor keys := hget ▸ List.getElem_mem hlt
  have hbehind : cursor.all fun c' => c < c' := (List.mem_filter.mp hmem).2
  have hsame : keysBehind (some c) keys = (keysBehind cursor keys).filter fun k => k < c := by
    unfold keysBehind
    rw [List.filter_filter]
    apply List.filter_congr
    intro k _
    cases cursor with
    | none => simp
    | some c' =>
      have hlt : c < c' := by simpa using hbehind
      rw [Bool.eq_iff_iff,Bool.and_eq_true]
      simp only [Option.all_some,decide_eq_true_eq]
      exact ⟨fun h => ⟨h,h.trans hlt⟩,fun h => h.1⟩
  have hsorted : (keysBehind cursor keys).Pairwise fun a b => b < a := hkeys.sublist List.filter_sublist
  have hsplit := List.take_append_drop (limit - 1) (keysBehind cursor keys)
  rw [List.drop_eq_getElem_cons hlt,hget,Nat.sub_add_cancel hlimit] at hsplit
  rw [hsame]
  rw [← hsplit,List.pairwise_append,List.pairwise_cons] at hsorted
  obtain ⟨_,⟨hrest,_⟩,hfront⟩ := hsorted
  have hnone : ((keysBehind cursor keys).take (limit - 1)).filter (fun k => k < c) = [] := by
    apply List.filter_eq_nil_iff.mpr
    intro k hk
    simpa using (hfront k hk c List.mem_cons_self).le
  have hall : ((keysBehind cursor keys).drop limit).filter (fun k => k < c) = (keysBehind cursor keys).drop limit := by
    apply List.filter_eq_self.mpr
    intro k hk
    exact decide_eq_true (hrest k hk)
  conv_lhs => rw [← hsplit]
  rw [List.filter_append,List.filter_cons_of_neg (by simp),hnone,hall,List.nil_append]

/-- Following the cursors ends, and the pages together are the keys. -/
theorem follows_all (shown : P → List κ) {limit : ℕ} (hlimit : 0 < limit)
    (hpage : ∀ n cursor, (∀ c ∈ cursor, c ∈ keys) → (cursor = none → n = 0) →
      PageBehind keys limit cursor (shown (request n cursor)) (next (request n cursor)))
    {n : ℕ} {cursor : Option κ} (hcursor : ∀ c ∈ cursor, c ∈ keys) (hfirst : cursor = none → n = 0) :
    ∃ pages, Follows next request n cursor pages ∧ pages.flatMap shown = keysBehind cursor keys ∧
      ∀ page ∈ pages, (shown page).length ≤ limit := by
  induction hlength : (keysBehind cursor keys).length using Nat.strong_induction_on generalizing n cursor with
  | _ length ih =>
    have hthis := hpage n cursor hcursor hfirst
    have hshort : (shown (request n cursor)).length ≤ limit := hthis.shown ▸ List.length_take_le ..
    by_cases hmore : limit < (keysBehind cursor keys).length
    · have hlt : limit - 1 < (keysBehind cursor keys).length := by omega
      have hc := List.getElem?_eq_getElem hlt
      have hnext := hthis.next
      rw [if_pos hmore,hc] at hnext
      have hbehind := keysBehind_next hkeys hlimit hc
      have hmem : (keysBehind cursor keys)[limit - 1] ∈ keys := (List.mem_filter.mp (List.getElem_mem hlt)).1
      have hless : (keysBehind (some (keysBehind cursor keys)[limit - 1]) keys).length < length := by
        rw [hbehind,List.length_drop]
        omega
      have hcursor' : ∀ c ∈ some (keysBehind cursor keys)[limit - 1], c ∈ keys := by
        rintro _ ⟨⟩
        exact hmem
      obtain ⟨pages,hpages,hshown,hlimits⟩ := ih _ hless (n := n + 1) hcursor' (fun h => by cases h) rfl
      refine ⟨_,.more hnext hpages,?_,?_⟩
      · rw [List.flatMap_cons,hshown,hbehind,hthis.shown,List.take_append_drop]
      · intro page hp
        rcases List.mem_cons.mp hp with rfl | hp
        · exact hshort
        · exact hlimits page hp
    · have hnext := hthis.next
      rw [if_neg hmore] at hnext
      refine ⟨_,.last hnext,?_,?_⟩
      · rw [List.flatMap_singleton,hthis.shown,List.take_of_length_le (not_lt.mp hmore)]
      · intro page hp
        rw [List.mem_singleton.mp hp]
        exact hshort

end ByCursor

end Collections
