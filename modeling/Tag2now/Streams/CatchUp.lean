import Mathlib.Data.List.Basic
import Mathlib.Data.Set.Basic
import Mathlib.Logic.Function.Iterate
import Mathlib.Order.MinMax

/-! # Catching up from behind a mark

A reader goes through an ascending list: each time it takes the first few items from some way
behind its mark, does those that can be done, and moves its mark to the last it has done. An item
that cannot be done stays in the way. Which items the reads to come will do is decided by where
the mark is and by how close the items lie.
-/
namespace CatchUp
variable {α ι : Type} [LinearOrder ι]

structure Reader (ι : Type) [LinearOrder ι] where
  /-- Where a read begins, for a mark. -/
  back : ι → ι
  limit : ℕ
  mono : Monotone back
  behind : ∀ {m p x}, p < x → back m < x → back p < x

structure Progress (α ι : Type) where
  mark : ι
  done : Set α

def last (key : α → ι) (mark : ι) (xs : List α) : ι := xs.foldl (fun m x => max m (key x)) mark

def between (key : α → ι) (items : List α) (a b : ι) : List α := items.filter fun x => a < key x ∧ key x ≤ b

section Last
variable {key : α → ι} {mark m : ι} {xs : List α}

theorem last_le_iff : last key mark xs ≤ m ↔ mark ≤ m ∧ ∀ x ∈ xs, key x ≤ m := by
  unfold last
  induction xs generalizing mark with
  | nil => simp
  | cons x xs ih =>
    rw [List.foldl_cons,ih,max_le_iff,List.forall_mem_cons]
    exact and_assoc

theorem le_last : mark ≤ last key mark xs := (last_le_iff.mp le_rfl).1

theorem key_le_last {x : α} (hx : x ∈ xs) : key x ≤ last key mark xs := (last_le_iff.mp le_rfl).2 x hx

theorem last_cases (key : α → ι) (mark : ι) (xs : List α) : last key mark xs = mark ∨
    ∃ x ∈ xs, last key mark xs = key x := by
  unfold last
  induction xs generalizing mark with
  | nil => exact .inl rfl
  | cons x xs ih =>
    rw [List.foldl_cons]
    rcases ih (max mark (key x)) with h | ⟨y,hy,h⟩
    · rw [h]
      rcases max_choice mark (key x) with hmax | hmax
      · exact .inl hmax
      · exact .inr ⟨x,List.mem_cons_self,hmax⟩
    · exact .inr ⟨y,List.mem_cons_of_mem x hy,h⟩

/-- The first items of an ascending list. -/
theorem mem_take_iff {key : α → ι} {xs : List α} (hxs : xs.Pairwise fun x y => key x < key y) {x : α} (hx : x ∈ xs)
    (n : ℕ) : x ∈ xs.take n ↔ (xs.filter fun y => key y ≤ key x).length ≤ n := by
  induction xs generalizing n with
  | nil => cases hx
  | cons y xs ih =>
    obtain ⟨hfirst,hrest⟩ := List.pairwise_cons.mp hxs
    rcases List.mem_cons.mp hx with rfl | hmem
    · have hnone : (xs.filter fun y => key y ≤ key x) = [] := by
        apply List.filter_eq_nil_iff.mpr
        intro z hz
        have hlt := hfirst z hz
        simpa using hlt
      rw [List.filter_cons_of_pos (by simp),hnone]
      cases n with
      | zero => simp
      | succ n => simp
    · have hlt := hfirst x hmem
      have hne : x ≠ y := fun h => absurd hlt (h ▸ lt_irrefl _)
      rw [List.filter_cons_of_pos (by simpa using hlt.le),List.length_cons]
      cases n with
      | zero => simp
      | succ n =>
        rw [List.take_succ_cons,List.mem_cons,or_iff_right hne,ih hrest hmem n]
        omega

end Last

variable (R : Reader ι) (key : α → ι) (items : List α) (good : α → Bool)

def window (mark : ι) : List α := (items.filter fun x => R.back mark < key x).take R.limit

def step (s : Progress α ι) : Progress α ι where
  mark := last key s.mark ((window R key items s.mark).filter good)
  done := s.done ∪ {x | x ∈ window R key items s.mark ∧ good x = true}

/-- The mark when everything good before the item is done. -/
def previous (mark : ι) (x : α) : ι := last key mark (items.filter fun y => good y ∧ key y < key x)

/-- The reads to come get to the item. -/
structure Reached (s : Progress α ι) (x : α) : Prop where
  old : key x ≤ s.mark → x ∈ s.done ∨ R.back s.mark < key x
  new : s.mark < key x → R.back (previous key items good s.mark x) < key x ∧
    (between key items (R.back (previous key items good s.mark x)) (key x)).length ≤ R.limit

def Clear (s : Progress α ι) : Prop := ∀ x ∈ items, good x = true → Reached R key items good s x

/-- The keys ascend, and a read holds at least what it reads again. -/
structure Ordered : Prop where
  ascending : items.Pairwise fun x y => key x < key y
  overlap : ∀ m, (between key items (R.back m) m).length ≤ R.limit

variable {R key items good} {s : Progress α ι} {x y : α}

theorem between_length_mono (key : α → ι) (items : List α) {a b c d : ι} (hac : c ≤ a) (hbd : b ≤ d) :
    (between key items a b).length ≤ (between key items c d).length := by
  apply List.Sublist.length_le
  apply List.monotone_filter_right
  intro x hx
  simp only [decide_eq_true_eq] at hx ⊢
  exact ⟨hac.trans_lt hx.1,hx.2.trans hbd⟩

theorem mem_window_iff (h : Ordered R key items) (hx : x ∈ items) {m : ι} : x ∈ window R key items m ↔
    R.back m < key x ∧ (between key items (R.back m) (key x)).length ≤ R.limit := by
  have hsplit : between key items (R.back m) (key x) =
      (items.filter fun y => R.back m < key y).filter fun y => key y ≤ key x := by
    unfold between
    rw [List.filter_filter]
    apply List.filter_congr
    intro y _
    rw [← Bool.decide_and]
    exact decide_eq_decide.mpr and_comm
  have hsorted := h.ascending.sublist (List.filter_sublist (p := fun y => R.back m < key y))
  constructor
  · intro hmem
    have hfilter := List.mem_of_mem_take hmem
    have hback : R.back m < key x := by simpa using (List.mem_filter.mp hfilter).2
    rw [hsplit]
    exact ⟨hback,(mem_take_iff hsorted hfilter R.limit).mp hmem⟩
  · rintro ⟨hback,hlength⟩
    have hfilter : x ∈ items.filter fun y => R.back m < key y := List.mem_filter.mpr ⟨hx,by simpa using hback⟩
    rw [hsplit] at hlength
    exact (mem_take_iff hsorted hfilter R.limit).mpr hlength

/-- What lies before an item that is read, above where the read begins, is read. -/
theorem mem_window_of_le (h : Ordered R key items) {m : ι} (hx : x ∈ items) (hy : y ∈ items)
    (hread : y ∈ window R key items m) (hle : key x ≤ key y) (hback : R.back m < key x) : x ∈ window R key items m := by
  have hlength := ((mem_window_iff h hy).mp hread).2
  have hmono := between_length_mono key items (le_refl (R.back m)) hle
  exact (mem_window_iff h hx).mpr ⟨hback,hmono.trans hlength⟩

/-- What lies between the beginning of the read and the mark is read. -/
theorem mem_window_of_old (h : Ordered R key items) {m : ι} (hx : x ∈ items) (hle : key x ≤ m)
    (hback : R.back m < key x) : x ∈ window R key items m := by
  have hmono := between_length_mono key items (le_refl (R.back m)) hle
  exact (mem_window_iff h hx).mpr ⟨hback,hmono.trans (h.overlap m)⟩

section Previous
variable {m m' : ι}

theorem previous_lt (hm : m < key x) : previous key items good m x < key x := by
  unfold previous
  rcases last_cases key m (items.filter fun y => good y ∧ key y < key x) with h | ⟨y,hy,h⟩
  · rw [h]
    exact hm
  · have hlt : good y = true ∧ key y < key x := by simpa using (List.mem_filter.mp hy).2
    rw [h]
    exact hlt.2

theorem le_previous : m ≤ previous key items good m x := le_last

/-- The mark only matters below the item. -/
theorem previous_eq (hmm : m ≤ m') (hm' : m' = m ∨ ∃ y ∈ items, good y = true ∧ key y = m') (hx : m' < key x) :
    previous key items good m' x = previous key items good m x := by
  apply eq_of_forall_ge_iff
  intro z
  unfold previous
  rw [last_le_iff,last_le_iff]
  constructor
  · rintro ⟨hle,hall⟩
    exact ⟨hmm.trans hle,hall⟩
  · rintro ⟨hle,hall⟩
    refine ⟨?_,hall⟩
    rcases hm' with rfl | ⟨y,hy,hgood,rfl⟩
    · exact hle
    · exact hall y (List.mem_filter.mpr ⟨hy,by simp [hgood,hx]⟩)

end Previous

/-! ## A read decides nothing that was open -/

/-- Nothing above the mark is done. -/
def Behind (key : α → ι) (s : Progress α ι) : Prop := ∀ x ∈ s.done, key x ≤ s.mark

theorem mark_le_step : s.mark ≤ (step R key items good s).mark := le_last

theorem step_mark_cases (R : Reader ι) (key : α → ι) (items : List α) (good : α → Bool) (s : Progress α ι) :
    (step R key items good s).mark = s.mark ∨
    ∃ y ∈ window R key items s.mark, good y = true ∧ key y = (step R key items good s).mark := by
  rcases last_cases key s.mark ((window R key items s.mark).filter good) with h | ⟨y,hy,h⟩
  · exact .inl h
  · obtain ⟨hread,hgood⟩ := List.mem_filter.mp hy
    exact .inr ⟨y,hread,hgood,h.symm⟩

theorem mem_items_of_window {m : ι} (hx : x ∈ window R key items m) : x ∈ items :=
  List.mem_of_mem_filter (List.mem_of_mem_take hx)

/-- Seen from an item above its mark, a read changes nothing. -/
theorem previous_step (hx : (step R key items good s).mark < key x) :
    previous key items good (step R key items good s).mark x = previous key items good s.mark x := by
  have hmark : (step R key items good s).mark = s.mark ∨
      ∃ y ∈ items, good y = true ∧ key y = (step R key items good s).mark := by
    refine (step_mark_cases R key items good s).imp_right ?_
    rintro ⟨y,hread,hy⟩
    exact ⟨y,mem_items_of_window hread,hy⟩
  exact previous_eq mark_le_step hmark hx

theorem Behind.step (h : Behind key s) : Behind key (step R key items good s) := by
  rintro x (hx | ⟨hread,hgood⟩)
  · exact (h x hx).trans mark_le_step
  · exact key_le_last (List.mem_filter.mpr ⟨hread,hgood⟩)

theorem Reached.step (h : Ordered R key items) (hx : x ∈ items) (hgood : good x = true)
    (hr : Reached R key items good s x) : Reached R key items good (step R key items good s) x := by
  have hle : s.mark ≤ (CatchUp.step R key items good s).mark := mark_le_step
  constructor
  · intro hold
    by_cases hmark : key x ≤ s.mark
    · rcases hr.old hmark with hdone | hback
      · exact .inl (.inl hdone)
      · exact .inl (.inr ⟨mem_window_of_old h hx hmark hback,hgood⟩)
    · -- the mark has come past the item, so the read that took it there has the item
      have hlt : s.mark < key x := not_le.mp hmark
      rcases step_mark_cases R key items good s with hsame | ⟨y,hread,_,hy⟩
      · rw [hsame] at hold
        exact absurd hold hmark
      · have hback : R.back s.mark < key x := (R.mono le_previous).trans_lt (hr.new hlt).1
        have hmem := mem_window_of_le h hx (mem_items_of_window hread) hread (hy ▸ hold) hback
        exact .inl (.inr ⟨hmem,hgood⟩)
  · intro hnew
    rw [previous_step hnew]
    exact hr.new (hle.trans_lt hnew)

theorem Reached.of_step (h : Ordered R key items) (hs : Behind key s) (hx : x ∈ items)
    (hr : Reached R key items good (CatchUp.step R key items good s) x) : Reached R key items good s x := by
  have hle : s.mark ≤ (CatchUp.step R key items good s).mark := mark_le_step
  have hread (hnew : ¬ key x ≤ s.mark ∨ x ∉ s.done) (hold : key x ≤ (CatchUp.step R key items good s).mark) :
      R.back s.mark < key x := by
    rcases hr.old hold with (hdone | ⟨hmem,_⟩) | hback
    · exact absurd hdone (hnew.elim (fun hn hd => hn (hs x hd)) fun hn => hn)
    · exact ((mem_window_iff h hx).mp hmem).1
    · exact (R.mono hle).trans_lt hback
  constructor
  · intro hold
    by_cases hdone : x ∈ s.done
    · exact .inl hdone
    · exact .inr (hread (.inr hdone) (hold.trans hle))
  · intro hnew
    by_cases hold : key x ≤ (CatchUp.step R key items good s).mark
    · have hback := hread (.inl (not_le.mpr hnew)) hold
      refine ⟨R.behind (previous_lt hnew) hback,?_⟩
      rcases step_mark_cases R key items good s with hsame | ⟨y,hmem,_,hy⟩
      · rw [hsame] at hold
        exact absurd hnew (not_lt.mpr hold)
      · have hwindow := mem_window_of_le h hx (mem_items_of_window hmem) hmem (hy ▸ hold) hback
        have hlength := ((mem_window_iff h hx).mp hwindow).2
        exact (between_length_mono key items (R.mono le_previous) le_rfl).trans hlength
    · have hlt : (CatchUp.step R key items good s).mark < key x := not_le.mp hold
      rw [← previous_step hlt]
      exact hr.new hlt

/-- Which items the reads to come get to is the same before a read and after it. -/
theorem clear_step_iff (h : Ordered R key items) (hs : Behind key s) :
    Clear R key items good (step R key items good s) ↔ Clear R key items good s :=
  ⟨fun hc x hx hgood => (hc x hx hgood).of_step h hs hx,fun hc x hx hgood => (hc x hx hgood).step h hx hgood⟩

theorem step_of_stuck (hstuck : ∀ x ∈ window R key items s.mark, good x = false) : step R key items good s = s := by
  have hnone : (window R key items s.mark).filter good = [] := by
    apply List.filter_eq_nil_iff.mpr
    intro x hx
    rw [hstuck x hx]
    exact Bool.false_ne_true
  have hdone : {x | x ∈ window R key items s.mark ∧ good x = true} = ∅ := by
    apply Set.eq_empty_of_forall_notMem
    rintro x ⟨hx,hgood⟩
    rw [hstuck x hx] at hgood
    cases hgood
  unfold step
  rw [hnone,hdone,Set.union_empty]
  rfl

/-! ## Reading on -/

open Classical in
/-- How many good items are still to do. -/
noncomputable def left (items : List α) (good : α → Bool) (s : Progress α ι) : ℕ :=
  (items.filter fun x => good x = true ∧ x ∉ s.done).length

omit [LinearOrder ι] in
theorem done_of_left (hleft : left items good s = 0) (hx : x ∈ items) (hgood : good x = true) : x ∈ s.done := by
  by_contra hopen
  have hnone := List.length_eq_zero_iff.mp hleft
  have hmem : x ∈ ([] : List α) := by
    rw [← hnone]
    exact List.mem_filter.mpr ⟨hx,by simp [hgood,hopen]⟩
  cases hmem

/-- The first of the good items that are not done is read next. -/
theorem exists_read (h : Ordered R key items) (hs : Behind key s) (hc : Clear R key items good s)
    (hleft : left items good s ≠ 0) : ∃ x ∈ items, good x = true ∧ x ∉ s.done ∧ x ∈ window R key items s.mark := by
  classical
  have hsorted : (items.filter fun x => good x = true ∧ x ∉ s.done).Pairwise fun x y => key x < key y :=
    h.ascending.sublist List.filter_sublist
  unfold left at hleft
  cases hopen : items.filter fun x => good x = true ∧ x ∉ s.done with
  | nil =>
    rw [hopen] at hleft
    exact absurd rfl hleft
  | cons x rest =>
    have hmem : x ∈ items.filter fun x => good x = true ∧ x ∉ s.done := by
      rw [hopen]
      exact List.mem_cons_self
    obtain ⟨hx,hgood,hnot⟩ : x ∈ items ∧ good x = true ∧ x ∉ s.done := by simpa using hmem
    refine ⟨x,hx,hgood,hnot,?_⟩
    have hr := hc x hx hgood
    by_cases hold : key x ≤ s.mark
    · exact mem_window_of_old h hx hold ((hr.old hold).resolve_left hnot)
    · have hnew : s.mark < key x := not_le.mp hold
      have hbefore : ∀ y ∈ items, good y = true → key y < key x → y ∈ s.done := by
        intro y hy hgoody hlt
        by_contra hopeny
        have hmemy : y ∈ x :: rest := by
          rw [← hopen]
          exact List.mem_filter.mpr ⟨hy,by simp [hgoody,hopeny]⟩
        rw [hopen] at hsorted
        rcases List.mem_cons.mp hmemy with rfl | hrest
        · exact lt_irrefl _ hlt
        · exact lt_asymm hlt ((List.pairwise_cons.mp hsorted).1 y hrest)
      have hprevious : previous key items good s.mark x = s.mark := by
        refine le_antisymm (last_le_iff.mpr ⟨le_rfl,?_⟩) le_previous
        intro y hy
        obtain ⟨hmemy,hgoody,hlt⟩ : y ∈ items ∧ good y = true ∧ key y < key x := by simpa using hy
        exact hs y (hbefore y hmemy hgoody hlt)
      have hread := hr.new hnew
      rw [hprevious] at hread
      exact (mem_window_iff h hx).mpr hread

theorem left_step_lt (h : Ordered R key items) (hs : Behind key s) (hc : Clear R key items good s)
    (hleft : left items good s ≠ 0) : left items good (step R key items good s) < left items good s := by
  classical
  obtain ⟨x,hx,hgood,hnot,hread⟩ := exists_read h hs hc hleft
  have hdone : x ∈ (step R key items good s).done := .inr ⟨hread,hgood⟩
  have hsplit : (items.filter fun y => good y = true ∧ y ∉ (step R key items good s).done) =
      (items.filter fun y => good y = true ∧ y ∉ s.done).filter fun y => y ∉ (step R key items good s).done := by
    rw [List.filter_filter]
    apply List.filter_congr
    intro y _
    have hsub : y ∈ s.done → y ∈ (step R key items good s).done := .inl
    rw [← Bool.decide_and]
    apply decide_eq_decide.mpr
    constructor
    · rintro ⟨hgoody,hopen⟩
      exact ⟨hopen,hgoody,fun hy => hopen (hsub hy)⟩
    · rintro ⟨hopen,hgoody,_⟩
      exact ⟨hgoody,hopen⟩
  unfold left
  rw [hsplit]
  refine List.length_filter_lt_length_iff_exists.mpr ⟨x,List.mem_filter.mpr ⟨hx,by simp [hgood,hnot]⟩,?_⟩
  simpa using hdone

theorem iterate_clear_iff (h : Ordered R key items) (good : α → Bool) (hs : Behind key s) (n : ℕ) :
    Behind key ((step R key items good)^[n] s) ∧
      (Clear R key items good ((step R key items good)^[n] s) ↔ Clear R key items good s) := by
  induction n with
  | zero => exact ⟨hs,Iff.rfl⟩
  | succ n ih =>
    rw [Function.iterate_succ_apply']
    exact ⟨ih.1.step,(clear_step_iff h ih.1).trans ih.2⟩

/-- The good items are all done some time exactly when the reads get to each of them. -/
theorem all_done_iff (h : Ordered R key items) (good : α → Bool) (hs : Behind key s) :
    (∃ n, ∀ x ∈ items, good x = true → x ∈ ((step R key items good)^[n] s).done) ↔ Clear R key items good s := by
  constructor
  · rintro ⟨n,hdone⟩
    obtain ⟨hbehind,hclear⟩ := iterate_clear_iff h good hs n
    refine hclear.mp fun x hx hgood => ?_
    have hmem := hdone x hx hgood
    exact ⟨fun _ => .inl hmem,fun hnew => absurd (hbehind x hmem) (not_le.mpr hnew)⟩
  · intro hc
    generalize hk : left items good s = k
    induction k using Nat.strong_induction_on generalizing s with
    | _ k ih =>
      by_cases hzero : left items good s = 0
      · exact ⟨0,fun x hx hgood => done_of_left hzero hx hgood⟩
      · have hlt := left_step_lt h hs hc hzero
        obtain ⟨n,hn⟩ := ih _ (hk ▸ hlt) hs.step ((clear_step_iff h hs).mpr hc) rfl
        exact ⟨n + 1,hn⟩

end CatchUp
