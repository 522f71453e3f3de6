import Mathlib.Algebra.Order.Ring.Int
import Tag2now.Caching.Coherence
import Tag2now.Shared.Basics

/-! # The in-process cache

Entries with the time they expire at. Values are kept as JSON, which reads back as the
same JSON; the model keeps the value itself.
-/
namespace Tag2now
open ReadThrough

abbrev DictCache (ν : Type) := String → Option (ν × ℤ)

namespace DictCache
variable {ν : Type}

def empty : DictCache ν := fun _ => none

/-- An expired entry is dropped as it is met. -/
def get (store : DictCache ν) (key : String) (now : ℤ) : Option ν × DictCache ν :=
  match store key with
  | none => (none,store)
  | some (value,expireAt) => if expireAt ≤ now then (none,Function.update store key none) else (some value,store)

def set (store : DictCache ν) (key : String) (value : ν) (now ttl : ℤ) : DictCache ν :=
  Function.update store key (some (value,now + ttl))

def delete (store : DictCache ν) (key : String) : DictCache ν := Function.update store key none

variable {store : DictCache ν} {key key' : String} {now ttl : ℤ} {value : ν}

theorem get_eq_some (h : (store.get key now).1 = some value) : ∃ expireAt, store key = some (value,expireAt) := by
  unfold get at h
  split at h
  · cases h
  · rename_i v expireAt hstore
    split at h
    · cases h
    · cases h
      exact ⟨expireAt,hstore⟩

theorem get_kept {entry : ν × ℤ} (h : (store.get key now).2 key' = some entry) : store key' = some entry := by
  unfold get at h
  split at h
  · exact h
  · split at h
    · by_cases hk : key' = key
      · subst hk
        simp at h
      · simpa [Function.update_of_ne hk] using h
    · exact h

end DictCache

/-- The cache at whatever times it is read and written. -/
def dictCache (ν : Type) (ttl : ℤ) : Cache (DictCache ν) String ν where
  empty := .empty
  get c k v c' := ∃ now, DictCache.get c k now = (v,c')
  set c k v c' := ∃ now, c' = DictCache.set c k v now ttl
  holds c k v := ∃ expireAt, c k = some (v,expireAt)
  empty_holds := by
    rintro k v ⟨_,h⟩
    cases h
  get_holds := by
    rintro c c' k v ⟨now,h⟩
    exact DictCache.get_eq_some (congrArg Prod.fst h)
  get_kept := by
    rintro c c' k k' v v' ⟨now,h⟩ ⟨expireAt,hv⟩
    refine ⟨expireAt,@DictCache.get_kept _ c k k' now _ ?_⟩
    rw [h]
    exact hv
  set_holds := by
    rintro c c' k k' v v' ⟨now,rfl⟩ ⟨expireAt,hv⟩
    unfold DictCache.set at hv
    by_cases hk : k' = k
    · subst hk
      rw [Function.update_self] at hv
      cases hv
      exact .inr ⟨rfl,rfl⟩
    · rw [Function.update_of_ne hk] at hv
      exact .inl ⟨expireAt,hv⟩

def dictInvalidating (ν : Type) (ttl : ℤ) : Coherence.Invalidating (DictCache ν) String ν where
  toCache := dictCache ν ttl
  delete c k c' := c' = c.delete k
  delete_holds := by
    rintro c c' k k' v rfl ⟨expireAt,hv⟩
    unfold DictCache.delete at hv
    by_cases hk : k' = k
    · subst hk
      rw [Function.update_self] at hv
      cases hv
    · rw [Function.update_of_ne hk] at hv
      exact ⟨⟨expireAt,hv⟩,hk⟩

/-- Read and written within one instant, the cache keeps everything. -/
def dictCache_lasting (ν : Type) {ttl : ℤ} (httl : 0 < ttl) : Lasting (dictCache ν ttl) where
  rep c m := ∀ k, c k = (m k).map fun v => (v,ttl)
  empty _ := rfl
  get {c m} k hc := by
    refine ⟨c,⟨0,?_⟩,hc⟩
    unfold DictCache.get
    rw [hc k]
    cases m k with
    | none => rfl
    | some v => simp only [Option.map_some,if_neg (not_le.mpr httl)]
  set {c m} k v hc := by
    refine ⟨_,⟨0,rfl⟩,fun k' => ?_⟩
    unfold DictCache.set
    by_cases hk : k' = k
    · subst hk
      simp
    · rw [Function.update_of_ne hk,Function.update_of_ne hk]
      exact hc k'

end Tag2now
