import Mathlib.Data.List.Forall2
import Mathlib.Logic.Function.Basic

/-! # Reading through a cache

A query is answered from the cache under its key, or computed and stored on a miss. What
a cache must do for this is said by four laws, which expiry, eviction and lost writes all
keep. The answers are right as soon as queries with one key have the same right answers;
a cache that may keep all it was given shows that nothing less will do.
-/
namespace ReadThrough
variable {C κ ι ν : Type}

/-- A cache, as far as a reader can tell: what its operations may do, and what they may still find. -/
structure Cache (C κ ν : Type) where
  empty : C
  get : C → κ → Option ν → C → Prop
  set : C → κ → ν → C → Prop
  holds : C → κ → ν → Prop
  empty_holds : ∀ {k v}, ¬ holds empty k v
  get_holds : ∀ {c c' k v}, get c k (some v) c' → holds c k v
  get_kept : ∀ {c c' k k' v v'}, get c k v c' → holds c' k' v' → holds c k' v'
  set_holds : ∀ {c c' k k' v v'}, set c k v c' → holds c' k' v' → holds c k' v' ∨ (k' = k ∧ v' = v)

variable (M : Cache C κ ν) (key : ι → κ) (source : ι → ν → Prop)

/-- One query, its answer and the cache after it. -/
inductive Fetch (c : C) (q : ι) (v : ν) : C → Prop
  | hit {c' : C} : M.get c (key q) (some v) c' → Fetch c q v c'
  | miss {c₁ c' : C} : M.get c (key q) none c₁ → source q v → M.set c₁ (key q) v c' → Fetch c q v c'

inductive Serves : C → List ι → List ν → Prop
  | nil {c : C} : Serves c [] []
  | cons {c c' : C} {q : ι} {v : ν} {qs : List ι} {vs : List ν} : Fetch M key source c q v c' →
      Serves c' qs vs → Serves c (q :: qs) (v :: vs)

variable {M key source}

/-- Whatever the cache holds is a right answer to one of these queries. -/
def Sound (M : Cache C κ ν) (key : ι → κ) (source : ι → ν → Prop) (Q : Set ι) (c : C) : Prop :=
  ∀ ⦃k v⦄, M.holds c k v → ∃ q ∈ Q, key q = k ∧ source q v

theorem sound_empty (Q : Set ι) : Sound M key source Q M.empty := fun _ _ h => absurd h M.empty_holds

theorem Fetch.sound {Q : Set ι} {c c' : C} {q : ι} {v : ν} (h : Fetch M key source c q v c') (hq : q ∈ Q)
    (hc : Sound M key source Q c) : Sound M key source Q c' := by
  intro k v' hv'
  cases h with
  | hit hget => exact hc (M.get_kept hget hv')
  | miss hget hsource hset =>
    rcases M.set_holds hset hv' with hold | ⟨rfl,rfl⟩
    · exact hc (M.get_kept hget hold)
    · exact ⟨q,hq,rfl,hsource⟩

theorem Fetch.right {Q : Set ι} {c c' : C} {q : ι} {v : ν} (h : Fetch M key source c q v c') (hq : q ∈ Q)
    (hc : Sound M key source Q c)
    (hkey : ∀ q₁ ∈ Q, ∀ q₂ ∈ Q, key q₁ = key q₂ → ∀ v, source q₁ v → source q₂ v) : source q v := by
  cases h with
  | hit hget =>
    obtain ⟨q₁,hq₁,hsame,hsource⟩ := hc (M.get_holds hget)
    exact hkey q₁ hq₁ q hq hsame v hsource
  | miss _ hsource _ => exact hsource

/-- Where queries with one key have the same right answers, every answer is right. -/
theorem Serves.right {Q : Set ι} {c : C} {qs : List ι} {vs : List ν} (h : Serves M key source c qs vs)
    (hqs : ∀ q ∈ qs, q ∈ Q) (hc : Sound M key source Q c)
    (hkey : ∀ q₁ ∈ Q, ∀ q₂ ∈ Q, key q₁ = key q₂ → ∀ v, source q₁ v → source q₂ v) :
    List.Forall₂ source qs vs := by
  induction h with
  | nil => exact .nil
  | cons hfetch _ ih =>
    have hq := hqs _ (List.mem_cons_self ..)
    exact .cons (hfetch.right hq hc hkey)
      (ih (fun q hq => hqs q (List.mem_cons_of_mem _ hq)) (hfetch.sound hq hc))

/-- A cache that may keep everything: it can run as a finite map. -/
structure Lasting [DecidableEq κ] (M : Cache C κ ν) where
  rep : C → (κ → Option ν) → Prop
  empty : rep M.empty fun _ => none
  get : ∀ {c m} k, rep c m → ∃ c', M.get c k (m k) c' ∧ rep c' m
  set : ∀ {c m} k v, rep c m → ∃ c', M.set c k v c' ∧ rep c' (Function.update m k (some v))

variable [DecidableEq κ] [Inhabited ν]

/-- It can answer all the queries of one key alike. -/
theorem Lasting.serves (hM : Lasting M) {c : C} {m : κ → Option ν} {qs : List ι} (hc : hM.rep c m)
    (hsource : ∀ q ∈ qs, ∃ v, source q v) :
    ∃ g : κ → ν, (∀ k v, m k = some v → g k = v) ∧ Serves M key source c qs (qs.map fun q => g (key q)) := by
  induction qs generalizing c m with
  | nil => exact ⟨fun k => (m k).getD default,fun k v hv => by simp [hv],.nil⟩
  | cons q qs ih =>
    have hsource' : ∀ q ∈ qs, ∃ v, source q v := fun q hq => hsource q (List.mem_cons_of_mem _ hq)
    obtain ⟨c₁,hget,hc₁⟩ := hM.get (key q) hc
    cases hm : m (key q) with
    | some v =>
      rw [hm] at hget
      obtain ⟨g,hg,hserves⟩ := ih hc₁ hsource'
      have hv := hg _ _ hm
      subst hv
      exact ⟨g,hg,.cons (.hit hget) hserves⟩
    | none =>
      rw [hm] at hget
      obtain ⟨v,hv⟩ := hsource q (List.mem_cons_self ..)
      obtain ⟨c₂,hset,hc₂⟩ := hM.set (key q) v hc₁
      obtain ⟨g,hg,hserves⟩ := ih hc₂ hsource'
      have hgv : g (key q) = v := hg _ _ (Function.update_self ..)
      subst hgv
      refine ⟨g,fun k w hk => hg k w ?_,.cons (.miss hget hv hset) hserves⟩
      rw [Function.update_of_ne (by rintro rfl; rw [hm] at hk; cases hk)]
      exact hk

/-- Where every answer is right, queries with one key have a right answer in common. -/
theorem Lasting.common (hM : Lasting M) {qs : List ι} (hsource : ∀ q ∈ qs, ∃ v, source q v)
    (hright : ∀ vs, Serves M key source M.empty qs vs → List.Forall₂ source qs vs) {q₁ q₂ : ι}
    (hq₁ : q₁ ∈ qs) (hq₂ : q₂ ∈ qs) (hkey : key q₁ = key q₂) : ∃ v, source q₁ v ∧ source q₂ v := by
  obtain ⟨g,_,hserves⟩ := hM.serves hM.empty hsource
  have hall := List.forall₂_map_right_iff.mp (hright _ hserves)
  have heach := List.forall₂_same.mp hall
  exact ⟨g (key q₁),heach q₁ hq₁,hkey ▸ heach q₂ hq₂⟩

end ReadThrough
