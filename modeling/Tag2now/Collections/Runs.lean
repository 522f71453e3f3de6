import Mathlib.Data.List.Basic

/-! # Runs of a given length

A run is a stretch of items that a predicate holds of, with no further such item on either
side. Searching from the front finds the first run that has the length looked for.
-/
namespace Runs
variable {α : Type} (p : α → Bool) (n : ℕ)

/-- `m` is a run of `n` items between `pre` and `post`; `before` is what stands in front of `pre`. -/
structure Run (before : Option α) (pre m post : List α) : Prop where
  length : m.length = n
  holds : ∀ a ∈ m, p a = true
  front : ∀ a ∈ (before.toList ++ pre).getLast?, p a = false
  back : ∀ a ∈ post.head?, p a = false

def First (before : Option α) (xs m : List α) : Prop :=
  ∃ pre post, xs = pre ++ (m ++ post) ∧ Run p n before pre m post ∧
    ∀ pre' m' post', xs = pre' ++ (m' ++ post') → Run p n before pre' m' post' → pre.length ≤ pre'.length

/-- A run right here, behind the item `before`. -/
def here (before : Option α) (xs : List α) : Option (List α) :=
  if (xs.take n).length = n ∧ (xs.take n).all p ∧ before.all (fun a => !p a) ∧
    (xs.drop n).head?.all (fun a => !p a) then
    some (xs.take n)
  else none

/-- The places are tried from the front. -/
def search (before : Option α) : List α → Option (List α)
  | [] => here p n before []
  | x :: xs => (here p n before (x :: xs)).or (search (some x) xs)

variable {p n} {before : Option α} {x : α} {xs pre m post : List α}

theorem here_eq_some : here p n before xs = some m ↔ ∃ post, xs = m ++ post ∧ Run p n before [] m post := by
  unfold here
  constructor
  · intro h
    split at h
    · rename_i hrun
      cases h
      obtain ⟨hlength,hall,hfront,hback⟩ := hrun
      refine ⟨xs.drop n,(List.take_append_drop n xs).symm,hlength,List.all_eq_true.mp hall,?_,?_⟩
      · intro a ha
        cases before with
        | none => cases ha
        | some b =>
          cases ha
          simpa using hfront
      · intro a ha
        rw [Option.mem_def.mp ha] at hback
        simpa using hback
    · cases h
  · rintro ⟨post,rfl,hrun⟩
    rw [List.take_left' hrun.length,List.drop_left' hrun.length]
    apply if_pos
    refine ⟨hrun.length,List.all_eq_true.mpr hrun.holds,?_,?_⟩
    · cases before with
      | none => rfl
      | some b =>
        have hb : p b = false := hrun.front b rfl
        simp [hb]
    · cases hpost : post.head? with
      | none => rfl
      | some b =>
        have hb : p b = false := hrun.back b hpost
        simp [hb]

theorem run_cons : Run p n before (x :: pre) m post ↔ Run p n (some x) pre m post := by
  have hlast : (before.toList ++ x :: pre).getLast? = ((some x).toList ++ pre).getLast? := by
    cases before <;> simp
  constructor
  · rintro ⟨hlength,hholds,hfront,hback⟩
    exact ⟨hlength,hholds,hlast ▸ hfront,hback⟩
  · rintro ⟨hlength,hholds,hfront,hback⟩
    exact ⟨hlength,hholds,hlast ▸ hfront,hback⟩

theorem first_here (h : here p n before xs = some m) : First p n before xs m := by
  obtain ⟨post,hxs,hrun⟩ := here_eq_some.mp h
  exact ⟨[],post,hxs,hrun,fun _ _ _ _ _ => Nat.zero_le _⟩

theorem first_cons (hhere : here p n before (x :: xs) = none) :
    First p n before (x :: xs) m ↔ First p n (some x) xs m := by
  -- A run that starts at the front would have been found there.
  have hlater {pre m post : List α} (hxs : x :: xs = pre ++ (m ++ post)) (hrun : Run p n before pre m post) :
      ∃ pre', pre = x :: pre' ∧ xs = pre' ++ (m ++ post) ∧ Run p n (some x) pre' m post := by
    cases pre with
    | nil =>
      rw [here_eq_some.mpr ⟨post,hxs,hrun⟩] at hhere
      cases hhere
    | cons y pre' =>
      obtain ⟨rfl,htail⟩ := List.cons.inj hxs
      exact ⟨pre',rfl,htail,run_cons.mp hrun⟩
  constructor
  · rintro ⟨pre,post,hxs,hrun,hmin⟩
    obtain ⟨pre,rfl,htail,hrun⟩ := hlater hxs hrun
    refine ⟨pre,post,htail,hrun,fun pre' m' post' hxs' hrun' => ?_⟩
    have hle := hmin (x :: pre') m' post' (by rw [hxs']; rfl) (run_cons.mpr hrun')
    simpa using hle
  · rintro ⟨pre,post,hxs,hrun,hmin⟩
    refine ⟨x :: pre,post,by rw [hxs]; rfl,run_cons.mpr hrun,fun pre' m' post' hxs' hrun' => ?_⟩
    obtain ⟨pre',rfl,htail,hrun'⟩ := hlater hxs' hrun'
    exact Nat.succ_le_succ (hmin pre' m' post' htail hrun')

/-- The search finds the first run, and where it finds none there is none. -/
theorem search_eq_some : search p n before xs = some m ↔ First p n before xs m := by
  induction xs generalizing before with
  | nil =>
    refine ⟨first_here,?_⟩
    rintro ⟨pre,post,hxs,hrun,-⟩
    obtain ⟨rfl,hrest⟩ := List.append_eq_nil_iff.mp hxs.symm
    exact here_eq_some.mpr ⟨post,hrest.symm,hrun⟩
  | cons x xs ih =>
    unfold search
    cases hhere : here p n before (x :: xs) with
    | none => rw [Option.none_or,ih,first_cons hhere]
    | some found =>
      rw [Option.some_or]
      refine ⟨fun h => first_here (h ▸ hhere),?_⟩
      rintro ⟨pre,post,hxs,hrun,hmin⟩
      obtain ⟨post',hxs',hrun'⟩ := here_eq_some.mp hhere
      have hpre : pre = [] := List.length_eq_zero_iff.mp (Nat.le_zero.mp (hmin [] found post' hxs' hrun'))
      subst hpre
      have hsame := hxs'.symm.trans hxs
      exact congrArg some (List.append_inj_left hsame (hrun'.length.trans hrun.length.symm))

/-- An item that stands between two fronts of one list is in what follows the shorter one. -/
theorem last_mem {pre pre' m' post' : List α} (hne : pre ≠ []) (hxs : pre ++ xs = pre' ++ (m' ++ post'))
    (hlt : pre'.length < pre.length) (hreach : pre.length ≤ pre'.length + m'.length) : pre.getLast hne ∈ m' := by
  obtain ⟨gap,hgap⟩ : pre' <+: pre :=
    List.prefix_of_prefix_length_le (List.prefix_append pre' _) (hxs ▸ List.prefix_append pre xs) (Nat.le_of_lt hlt)
  subst hgap
  rw [List.append_assoc] at hxs
  have hrest : gap ++ xs = m' ++ post' := List.append_cancel_left hxs
  rw [List.length_append] at hlt hreach
  have hsub : gap <+: m' :=
    List.prefix_of_prefix_length_le (List.prefix_append gap xs) (hrest ▸ List.prefix_append m' post') (by omega)
  have hgap : gap ≠ [] := by
    rintro rfl
    exact Nat.lt_irrefl _ hlt
  rw [List.getLast_append_of_ne_nil _ hgap]
  exact hsub.subset (List.getLast_mem hgap)

/-- Where no more than the run's length is in front of it, it is the first. -/
theorem first_behind (hrun : Run p n before pre m post) (hpre : pre.length ≤ n) :
    First p n before (pre ++ (m ++ post)) m := by
  refine ⟨pre,post,rfl,hrun,fun pre' m' post' hxs hrun' => ?_⟩
  by_contra hlt
  have hne : pre ≠ [] := by
    rintro rfl
    exact hlt (Nat.zero_le _)
  have hfront := hrun.front (pre.getLast hne) (by simp [List.getLast?_eq_some_getLast hne])
  -- The last item of `pre` would be in the other run.
  have hmem : pre.getLast hne ∈ m' := last_mem hne hxs (Nat.lt_of_not_le hlt) (by rw [hrun'.length]; omega)
  rw [hrun'.holds _ hmem] at hfront
  cases hfront

end Runs
