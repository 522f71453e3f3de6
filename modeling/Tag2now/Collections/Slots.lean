import Mathlib.Logic.Function.Basic

/-! # Slots and writes

A function into `Option` is a row of slots, some of them filled; one slot at a time is filled
or cleared. In a log of writes, the newest first, the write of a key stands until another one
touches the key.
-/
namespace Collections
section Slots
variable {κ ν : Type} [DecidableEq κ] {slots : κ → Option ν} {k k' : κ} {v v' : ν}

theorem of_filled (h : Function.update slots k (some v) k' = some v') : v' = v ∨ slots k' = some v' := by
  by_cases hk : k' = k
  · subst hk
    rw [Function.update_self,Option.some.injEq] at h
    exact .inl h.symm
  · rw [Function.update_of_ne hk] at h
    exact .inr h

theorem of_cleared (h : Function.update slots k none k' = some v) : slots k' = some v := by
  by_cases hk : k' = k
  · subst hk
    rw [Function.update_self] at h
    cases h
  · rwa [Function.update_of_ne hk] at h

end Slots

section Writes
variable {κ ω : Type} {touches : ω → κ → Prop} {k : κ} {w e : ω} {log : List ω}

/-- The write is in the log, and nothing since touches the key. -/
def Stands (touches : ω → κ → Prop) (k : κ) (w : ω) (log : List ω) : Prop :=
  ∃ since earlier, log = since ++ w :: earlier ∧ ∀ e ∈ since, ¬ touches e k

theorem Stands.mem (h : Stands touches k w log) : w ∈ log := by
  obtain ⟨since,earlier,rfl,_⟩ := h
  exact List.mem_append_right since List.mem_cons_self

theorem not_stands_nil : ¬ Stands touches k w [] := fun h => List.not_mem_nil h.mem

theorem stands_self : Stands touches k w (w :: log) := ⟨[],log,rfl,fun _ h => absurd h List.not_mem_nil⟩

theorem stands_cons : Stands touches k w (e :: log) ↔ e = w ∨ ¬ touches e k ∧ Stands touches k w log := by
  constructor
  · rintro ⟨since,earlier,hlog,hsince⟩
    cases since with
    | nil =>
      cases hlog
      exact .inl rfl
    | cons e' since =>
      cases hlog
      have hlater : ∀ e ∈ since, ¬ touches e k := fun e he => hsince e (List.mem_cons_of_mem _ he)
      exact .inr ⟨hsince _ List.mem_cons_self,since,earlier,rfl,hlater⟩
  · rintro (rfl | ⟨he,since,earlier,rfl,hsince⟩)
    · exact stands_self
    · refine ⟨e :: since,earlier,rfl,?_⟩
      intro e' he'
      rcases List.mem_cons.mp he' with rfl | hmem
      · exact he
      · exact hsince e' hmem

end Writes

end Collections
