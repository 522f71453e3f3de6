/-! # Machines with guarded steps

A step computes the next state, or says that it cannot be taken. What holds at the start and
over every step that may be taken holds in every state reached.
-/
namespace Guarded

structure Machine (σ α : Type) where
  start : σ
  step : σ → α → Option σ

namespace Machine
variable {σ α : Type} (M : Machine σ α)

/-- The states reached by steps that are allowed where they are taken. -/
inductive Reachable (allowed : σ → α → Prop) : σ → Prop
  | start : Reachable allowed M.start
  | step {s s' : σ} {a : α} : Reachable allowed s → allowed s a → M.step s a = some s' → Reachable allowed s'

/-- Any step may be taken. -/
abbrev Reached : σ → Prop := M.Reachable fun _ _ => True

def run (s : σ) (actions : List α) : Option σ := actions.foldlM M.step s

variable {M} {allowed : σ → α → Prop} {s s' : σ}

theorem Reachable.invariant {P : σ → Prop} (start : P M.start)
    (step : ∀ {s a s'}, P s → allowed s a → M.step s a = some s' → P s') (h : M.Reachable allowed s) : P s := by
  induction h with
  | start => exact start
  | step _ hallowed hstep ih => exact step ih hallowed hstep

theorem run_cons {a : α} {actions : List α} (h : M.step s a = some s') :
    M.run s (a :: actions) = M.run s' actions := by
  unfold run
  rw [List.foldlM_cons,h]
  rfl

theorem run_single {a : α} (h : M.step s a = some s') : M.run s [a] = some s' := run_cons h

theorem Reachable.run {actions : List α} (h : M.Reached s) (hrun : M.run s actions = some s') : M.Reached s' := by
  induction actions generalizing s with
  | nil =>
    cases hrun
    exact h
  | cons a actions ih =>
    cases hstep : M.step s a with
    | none =>
      unfold Machine.run at hrun
      rw [List.foldlM_cons,hstep] at hrun
      cases hrun
    | some next =>
      rw [run_cons hstep] at hrun
      exact ih (h.step trivial hstep) hrun

end Machine

end Guarded
