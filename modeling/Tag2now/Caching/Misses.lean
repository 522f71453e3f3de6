import Mathlib.Data.List.Nodup
import Mathlib.Logic.Function.Basic

/-! # Calls on a cache that fails

A read of the cache that fails looks like a miss, and a write that fails is dropped. A
call over such a cache gives an answer when it gives it whatever fails, as long as all
that is held is right; one rule for each way of putting calls together carries this
through a whole call. An entry that runs out during the call is one more miss.
-/
namespace CacheMisses

/-- What the cache holds, and which of the operations on it from now on will fail. -/
structure World {κ : Type} (V : κ → Type) where
  holds : ∀ k, Option (V k)
  fails : ℕ → Bool

abbrev Call {κ : Type} (V : κ → Type) (ε α : Type) := EStateM ε (World V) α

section
variable {κ : Type} {V : κ → Type} {ε α β : Type}

def World.next (w : World V) : World V := { w with fails := fun n => w.fails (n + 1) }

def cacheGet (k : κ) : Call V ε (Option (V k)) := fun w =>
  .ok (if w.fails 0 then none else w.holds k) w.next

/-- The answer from the cache where there is one that counts, or what the fill answers. -/
def orFill (k : κ) (hit : V k → Bool) (fill : Call V ε (V k)) : Call V ε (V k) := do
  match ← cacheGet k with
  | some v => if hit v then pure v else fill
  | none => fill

/-- How a call that ends with this answer leaves the cache. -/
def ended (w : World V) : Except ε α → EStateM.Result ε (World V) α
  | .ok a => .ok a w
  | .error e => .error e w

def answer (call : Call V ε α) (w : World V) : Except ε α :=
  match call w with
  | .ok a _ => .ok a
  | .error e _ => .error e

def World.Right (right : ∀ k, V k → Prop) (w : World V) : Prop := ∀ ⦃k v⦄, w.holds k = some v → right k v

/-- Whatever fails, the call gives this answer and leaves only right entries. -/
def Gives (right : ∀ k, V k → Prop) (call : Call V ε α) (r : Except ε α) : Prop :=
  ∀ w, w.Right right → ∃ w' : World V, w'.Right right ∧ call w = ended w' r

/-- Whatever fails and whatever right entries are held, the call answers this. -/
def OnlyMisses (right : ∀ k, V k → Prop) (call : Call V ε α) (r : Except ε α) : Prop :=
  ∀ w, w.Right right → answer call w = r

/-- An entry under this key is what is computed for it. -/
def Stored (k₀ : κ) (compute : Except ε (V k₀)) : ∀ k, V k → Prop := fun k v => ∀ h : k = k₀, compute = .ok (h ▸ v)

variable {right : ∀ k, V k → Prop} {k : κ} {v : V k} {w : World V} {r : Except ε α}

theorem stored_self {compute : Except ε (V k)} : Stored k compute k v ↔ compute = .ok v := by
  unfold Stored
  constructor
  · exact fun h => h rfl
  · exact fun h _ => h

theorem answer_of_ended {call : Call V ε α} {w' : World V} (h : call w = ended w' r) : answer call w = r := by
  unfold answer
  rw [h]
  cases r <;> rfl

theorem Gives.onlyMisses {call : Call V ε α} (h : Gives right call r) : OnlyMisses right call r := by
  intro w hw
  obtain ⟨w',_,hrun⟩ := h w hw
  exact answer_of_ended hrun

theorem bind_ok {call : Call V ε α} {f : α → Call V ε β} {a : α} {w' : World V} (h : call w = .ok a w') :
    (call >>= f) w = f a w' := by
  change EStateM.bind call f w = _
  unfold EStateM.bind
  rw [h]

theorem bind_error {call : Call V ε α} {f : α → Call V ε β} {e : ε} {w' : World V} (h : call w = .error e w') :
    (call >>= f) w = .error e w' := by
  change EStateM.bind call f w = _
  unfold EStateM.bind
  rw [h]

/-- A call that begins with a step that does not touch the cache. -/
theorem answer_ofExcept_bind (x : Except ε α) (f : α → Call V ε β) (w : World V) :
    answer (ofExcept x >>= f) w = x >>= fun a => answer (f a) w := by
  cases x <;> rfl

theorem answer_bind_ok {call : Call V ε α} {f : α → Call V ε β} {a : α} {w' : World V} (h : call w = .ok a w') :
    answer (call >>= f) w = answer (f a) w' := by
  unfold answer
  rw [bind_ok h]

theorem answer_bind_error {call : Call V ε α} {f : α → Call V ε β} {e : ε} {w' : World V}
    (h : call w = .error e w') : answer (call >>= f) w = .error e := by
  unfold answer
  rw [bind_error h]

theorem answer_cacheGet_bind (f : Option (V k) → Call V ε β) (w : World V) :
    answer (cacheGet k >>= f) w = answer (f (if w.fails 0 then none else w.holds k)) w.next := rfl

theorem gives_pure (a : α) : Gives right (pure a : Call V ε α) (.ok a) := fun w hw => ⟨w,hw,rfl⟩

theorem gives_ofExcept (r : Except ε α) : Gives right (ofExcept r : Call V ε α) r := by
  intro w hw
  refine ⟨w,hw,?_⟩
  cases r <;> rfl

theorem Gives.bind {call : Call V ε α} {f : α → Call V ε β} {g : α → Except ε β} (h : Gives right call r)
    (hf : ∀ a, r = .ok a → Gives right (f a) (g a)) : Gives right (call >>= f) (r >>= g) := by
  intro w hw
  obtain ⟨w₁,hw₁,hrun⟩ := h w hw
  cases r with
  | error e => exact ⟨w₁,hw₁,bind_error hrun⟩
  | ok a =>
    obtain ⟨w₂,hw₂,hrest⟩ := hf a rfl w₁ hw₁
    exact ⟨w₂,hw₂,(bind_ok hrun).trans hrest⟩

theorem Gives.map {call : Call V ε α} (f : α → β) (h : Gives right call r) : Gives right (f <$> call) (f <$> r) := by
  intro w hw
  obtain ⟨w',hw',hrun⟩ := h w hw
  refine ⟨w',hw',?_⟩
  change EStateM.map f call w = _
  unfold EStateM.map
  rw [hrun]
  cases r <;> rfl

theorem gives_mapM {f : α → Call V ε β} {g : α → Except ε β} {xs : List α}
    (h : ∀ x ∈ xs, Gives right (f x) (g x)) : Gives right (xs.mapM f) (xs.mapM g) := by
  induction xs with
  | nil => exact gives_pure []
  | cons x xs ih =>
    have hrest := ih fun y hy => h y (List.mem_cons_of_mem _ hy)
    rw [List.mapM_cons,List.mapM_cons]
    exact (h x (List.mem_cons_self ..)).bind fun b _ => hrest.bind fun bs _ => gives_pure (b :: bs)

theorem gives_forM {f : α → Call V ε Unit} {xs : List α} (h : ∀ x ∈ xs, Gives right (f x) (.ok ())) :
    Gives right (xs.forM f) (.ok ()) := by
  induction xs with
  | nil => exact gives_pure ()
  | cons x xs ih =>
    have hrest := ih fun y hy => h y (List.mem_cons_of_mem _ hy)
    exact (h x (List.mem_cons_self ..)).bind fun _ _ => hrest

theorem gives_orFill {hit : V k → Bool} {fill : Call V ε (V k)} {r : Except ε (V k)}
    (hright : ∀ v, right k v → r = .ok v) (hfill : Gives right fill r) : Gives right (orFill k hit fill) r := by
  intro w hw
  have hnext : w.next.Right right := hw
  have hget : (cacheGet k : Call V ε _) w = .ok (if w.fails 0 then none else w.holds k) w.next := rfl
  unfold orFill
  rw [bind_ok hget]
  cases hfound : if w.fails 0 then none else w.holds k with
  | none => exact hfill _ hnext
  | some v =>
    have hheld : w.holds k = some v := by
      split at hfound
      · cases hfound
      · exact hfound
    by_cases hv : hit v
    · rw [hright v (hw hheld)]
      refine ⟨w.next,hnext,?_⟩
      simp only [if_pos hv]
      rfl
    · simp only [if_neg hv]
      exact hfill _ hnext

end

section Writes
variable {κ : Type} [DecidableEq κ] {V : κ → Type} {ε α : Type}

def World.put (w : World V) (k : κ) (v : V k) : World V := { w with holds := Function.update w.holds k (some v) }

def cacheSet (k : κ) (v : V k) : Call V ε Unit := fun w =>
  .ok () (if w.fails 0 then w.next else w.next.put k v)

/-- Computed, stored and answered where the cache has no answer that counts. -/
def readThrough (k : κ) (hit : V k → Bool) (compute : Except ε (V k)) : Call V ε (V k) :=
  orFill k hit do
    let v ← ofExcept compute
    cacheSet k v
    pure v

/-- Every one of these entries is written, one after another. -/
def cacheSetAll (key : α → κ) (value : ∀ x, V (key x)) (xs : List α) : Call V ε Unit :=
  xs.forM fun x => cacheSet (key x) (value x)

variable {right : ∀ k, V k → Prop} {k k' : κ} {v : V k} {w : World V}

theorem World.put_holds_self : (w.put k v).holds k = some v := Function.update_self ..

theorem World.put_holds_of_ne (h : k' ≠ k) : (w.put k v).holds k' = w.holds k' := Function.update_of_ne h ..

theorem gives_cacheSet (h : right k v) : Gives right (cacheSet k v : Call V ε Unit) (.ok ()) := by
  intro w hw
  refine ⟨_,?_,rfl⟩
  split
  · exact hw
  · intro k' v' hv'
    by_cases hk : k' = k
    · subst hk
      rw [World.put_holds_self,Option.some.injEq] at hv'
      exact hv' ▸ h
    · rw [World.put_holds_of_ne hk] at hv'
      exact hw hv'

theorem gives_readThrough {hit : V k → Bool} {compute : Except ε (V k)} (h : ∀ v, right k v ↔ compute = .ok v) :
    Gives right (readThrough k hit compute) compute := by
  refine gives_orFill (fun v => (h v).mp) ?_
  cases hcompute : compute with
  | error e => exact gives_ofExcept (.error e)
  | ok v =>
    have hset : Gives right (cacheSet k v : Call V ε Unit) (.ok ()) := gives_cacheSet ((h v).mpr hcompute)
    exact (gives_ofExcept (.ok v)).bind fun a ha => by
      cases ha
      exact hset.bind fun _ _ => gives_pure v

/-- Nothing more is asked of the cache than that the entry itself is right. -/
theorem readThrough_gives (k : κ) (hit : V k → Bool) (compute : Except ε (V k)) :
    Gives (Stored k compute) (readThrough k hit compute) compute := gives_readThrough fun _ => stored_self

theorem gives_cacheSetAll {key : α → κ} {value : ∀ x, V (key x)} {xs : List α}
    (h : ∀ x ∈ xs, right (key x) (value x)) : Gives right (cacheSetAll key value xs : Call V ε Unit) (.ok ()) :=
  gives_forM fun x hx => gives_cacheSet (h x hx)

/-- What stands in the cache after the writes: the dropped ones left what was there. -/
structure Written (key : α → κ) (value : ∀ x, V (key x)) (xs : List α) (w w' : World V) : Prop where
  fails : ∀ n, w'.fails n = w.fails (xs.length + n)
  other : ∀ k, (∀ x ∈ xs, key x ≠ k) → w'.holds k = w.holds k
  entry : ∀ i (h : i < xs.length), w'.holds (key xs[i]) = if w.fails i then w.holds (key xs[i]) else some (value xs[i])

theorem cacheSetAll_written {key : α → κ} {value : ∀ x, V (key x)} {xs : List α} (hkeys : (xs.map key).Nodup)
    (w : World V) : ∃ w', (cacheSetAll key value xs : Call V ε Unit) w = .ok () w' ∧ Written key value xs w w' := by
  induction xs generalizing w with
  | nil => exact ⟨w,rfl,fun n => by simp,fun _ _ => rfl,fun i h => absurd h (Nat.not_lt_zero i)⟩
  | cons x xs ih =>
    rw [List.map_cons,List.nodup_cons] at hkeys
    have hnot : ∀ y ∈ xs, key y ≠ key x := fun y hy hyx => hkeys.1 (hyx ▸ List.mem_map_of_mem hy)
    have hset : (cacheSet (key x) (value x) : Call V ε Unit) w = .ok () _ := rfl
    obtain ⟨w',hrun,hfails,hother,hentry⟩ := ih hkeys.2
      (if w.fails 0 then w.next else w.next.put (key x) (value x))
    have hnext : ∀ n, w'.fails n = w.fails (xs.length + n + 1) := by
      intro n
      rw [hfails]
      split <;> rfl
    refine ⟨w',(bind_ok hset).trans hrun,?_,?_,?_⟩
    · intro n
      rw [hnext,List.length_cons]
      congr 1
      omega
    · intro k hk
      have hx : k ≠ key x := (hk x (List.mem_cons_self ..)).symm
      rw [hother k fun y hy => hk y (List.mem_cons_of_mem _ hy)]
      split
      · rfl
      · exact World.put_holds_of_ne hx
    · intro i hi
      cases i with
      | zero =>
        rw [List.getElem_cons_zero,hother (key x) hnot]
        split
        · rfl
        · exact World.put_holds_self
      | succ i =>
        have hlt : i < xs.length := Nat.lt_of_succ_lt_succ hi
        have hx : key xs[i] ≠ key x := hnot _ (List.getElem_mem hlt)
        rw [List.getElem_cons_succ,hentry i hlt]
        split
        · rfl
        · rw [World.put_holds_of_ne hx]
          rfl

end Writes

end CacheMisses
