import Mathlib.Data.List.Forall2

/-! # Steps that may fail

One after another, or one for each entry of a list. The first failure ends them.
-/
namespace Collections
variable {ε α β : Type} {f : α → Except ε β} {xs : List α}

theorem ok_of_bind {x : Except ε α} {b : β} (h : (x >>= f) = .ok b) : ∃ a, x = .ok a ∧ f a = .ok b := by
  cases x with
  | error e => cases h
  | ok a => exact ⟨a,rfl,h⟩

theorem error_of_bind {x : Except ε α} {e : ε} (h : (x >>= f) = .error e) :
    x = .error e ∨ ∃ a, x = .ok a ∧ f a = .error e := by
  cases x with
  | error e' =>
    cases h
    exact .inl rfl
  | ok a => exact .inr ⟨a,rfl,h⟩

theorem mapM_ok_iff {ys : List β} : xs.mapM f = .ok ys ↔ List.Forall₂ (fun x y => f x = .ok y) xs ys := by
  induction xs generalizing ys with
  | nil =>
    constructor
    · intro h
      cases h
      exact .nil
    · rintro ⟨⟩
      rfl
  | cons x xs ih =>
    rw [List.mapM_cons]
    simp only [bind,Except.bind]
    constructor
    · intro h
      cases hx : f x with
      | error e =>
        rw [hx] at h
        cases h
      | ok y =>
        simp only [hx] at h
        cases hxs : xs.mapM f with
        | error e =>
          rw [hxs] at h
          cases h
        | ok zs =>
          rw [hxs] at h
          cases h
          exact .cons hx (ih.mp hxs)
    · rintro (_ | ⟨hy,hys⟩)
      simp only [hy,ih.mpr hys]
      rfl

theorem exists_of_mapM {ys : List β} {y : β} (h : xs.mapM f = .ok ys) (hy : y ∈ ys) : ∃ x ∈ xs, f x = .ok y := by
  obtain ⟨i,hi,rfl⟩ := List.getElem_of_mem hy
  have hall := List.forall₂_iff_get.mp (mapM_ok_iff.mp h)
  have hlt : i < xs.length := hall.1 ▸ hi
  exact ⟨xs[i],List.getElem_mem hlt,hall.2 i hlt hi⟩

theorem mapM_map {g : α → β} (h : ∀ x ∈ xs, f x = .ok (g x)) : xs.mapM f = .ok (xs.map g) := by
  rw [mapM_ok_iff,List.forall₂_map_right_iff,List.forall₂_same]
  exact h

theorem mapM_fails {x : α} {e : ε} (hx : x ∈ xs) (h : f x = .error e) : ∃ e', xs.mapM f = .error e' := by
  cases hxs : xs.mapM f with
  | error e' => exact ⟨e',rfl⟩
  | ok ys =>
    obtain ⟨i,hi,rfl⟩ := List.getElem_of_mem hx
    have hall := mapM_ok_iff.mp hxs
    have hok := List.forall₂_iff_get.mp hall
    have hget : f xs[i] = .ok ys[i] := hok.2 i hi (hok.1 ▸ hi)
    rw [h] at hget
    cases hget

/-! ## With a state -/

theorem get_ok {σ : Type} (s : σ) : (EStateM.get s : EStateM.Result ε σ σ) = .ok s s := rfl

theorem modifyGet_ok {σ : Type} (f : σ → α × σ) (s : σ) :
    (EStateM.modifyGet f s : EStateM.Result ε σ α) = .ok (f s).1 (f s).2 := rfl

end Collections
