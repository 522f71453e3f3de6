import Mathlib.Data.List.AList

/-! # Dictionaries

Finite maps with loops over them: assigning to many keys, popping many keys and dropping
the entries whose values fail a test. Each is described by what a lookup finds afterwards.
-/
namespace Collections
variable {κ ν α : Type} [DecidableEq κ]

abbrev Dict (κ ν : Type) := AList fun _ : κ => ν

def values (d : Dict κ ν) : List ν := d.entries.map (·.2)

/-- `for x in xs: d[key(x)] = value(x)`. -/
def setAll (key : α → κ) (value : α → ν) (xs : List α) (d : Dict κ ν) : Dict κ ν :=
  xs.foldl (fun d x => d.insert (key x) (value x)) d

/-- `for k in ks: d.pop(k, None)`. -/
def popAll (ks : List κ) (d : Dict κ ν) : Dict κ ν := ks.foldl (fun d k => d.erase k) d

/-- Keeps the entries whose values pass. -/
def keep (p : ν → Bool) (d : Dict κ ν) : Dict κ ν :=
  ⟨d.entries.filter fun e => p e.2,d.nodupKeys.sublist List.filter_sublist⟩

variable {key : α → κ} {value : α → ν} {d : Dict κ ν} {k : κ} {v : ν}

theorem mem_values : v ∈ values d ↔ ∃ k, d.lookup k = some v := by
  unfold values
  rw [List.mem_map]
  constructor
  · rintro ⟨e,he,rfl⟩
    exact ⟨e.1,AList.mem_lookup_iff.mpr he⟩
  · rintro ⟨k,hk⟩
    exact ⟨⟨k,v⟩,AList.mem_lookup_iff.mp hk,rfl⟩

theorem lookup_insert_eq (k' : κ) (v' : ν) : (d.insert k' v').lookup k = if k = k' then some v' else d.lookup k := by
  by_cases h : k = k'
  · subst h
    rw [if_pos rfl]
    exact AList.lookup_insert d
  · rw [if_neg h]
    exact AList.lookup_insert_ne h

theorem lookup_setAll_of_not {xs : List α} (h : ∀ x ∈ xs, key x ≠ k) :
    (setAll key value xs d).lookup k = d.lookup k := by
  induction xs generalizing d with
  | nil => rfl
  | cons x xs ih =>
    have hx : k ≠ key x := (h x (List.mem_cons_self ..)).symm
    have hxs : ∀ y ∈ xs, key y ≠ k := fun y hy => h y (List.mem_cons_of_mem _ hy)
    unfold setAll at ih ⊢
    rw [List.foldl_cons,ih hxs,lookup_insert_eq,if_neg hx]

theorem lookup_setAll_of_mem {xs : List α} (hkeys : (xs.map key).Nodup) {x : α} (hx : x ∈ xs) :
    (setAll key value xs d).lookup (key x) = some (value x) := by
  induction xs generalizing d with
  | nil => cases hx
  | cons y ys ih =>
    rw [List.map_cons,List.nodup_cons] at hkeys
    unfold setAll at ih ⊢
    rw [List.foldl_cons]
    rcases List.mem_cons.mp hx with rfl | hys
    · have hnot : ∀ z ∈ ys, key z ≠ key x := fun z hz hzx => hkeys.1 (hzx ▸ List.mem_map_of_mem hz)
      have hlast := @lookup_setAll_of_not _ _ _ _ key value (d.insert (key x) (value x)) _ _ hnot
      unfold setAll at hlast
      rw [hlast,lookup_insert_eq,if_pos rfl]
    · exact ih hkeys.2 hys

theorem lookup_setAll {xs : List α} (hkeys : (xs.map key).Nodup) :
    (setAll key value xs d).lookup k = some v ↔
      (∃ x ∈ xs, key x = k ∧ value x = v) ∨ ((∀ x ∈ xs, key x ≠ k) ∧ d.lookup k = some v) := by
  by_cases h : ∃ x ∈ xs, key x = k
  · obtain ⟨x,hx,rfl⟩ := h
    rw [lookup_setAll_of_mem hkeys hx,Option.some.injEq]
    constructor
    · intro hv
      exact .inl ⟨x,hx,rfl,hv⟩
    · rintro (⟨y,hy,hkey,rfl⟩ | ⟨hnot,_⟩)
      · rw [List.inj_on_of_nodup_map hkeys hy hx hkey]
      · exact absurd rfl (hnot x hx)
  · have hnot : ∀ x ∈ xs, key x ≠ k := fun x hx hkey => h ⟨x,hx,hkey⟩
    rw [lookup_setAll_of_not hnot]
    constructor
    · intro hv
      exact .inr ⟨hnot,hv⟩
    · rintro (⟨x,hx,hkey,_⟩ | ⟨_,hv⟩)
      · exact absurd hkey (hnot x hx)
      · exact hv

theorem of_lookup_setAll {xs : List α} (h : (setAll key value xs d).lookup k = some v) :
    (∃ x ∈ xs, key x = k ∧ value x = v) ∨ d.lookup k = some v := by
  induction xs generalizing d with
  | nil => exact .inr h
  | cons x xs ih =>
    unfold setAll at ih h
    rw [List.foldl_cons] at h
    rcases ih h with ⟨y,hy,hkey,hvalue⟩ | hlookup
    · exact .inl ⟨y,List.mem_cons_of_mem _ hy,hkey,hvalue⟩
    · rw [lookup_insert_eq] at hlookup
      split at hlookup
      · rename_i hk
        exact .inl ⟨x,List.mem_cons_self ..,hk.symm,Option.some.inj hlookup⟩
      · exact .inr hlookup

theorem setAll_append (xs ys : List α) :
    setAll key value (xs ++ ys) d = setAll key value ys (setAll key value xs d) := by
  unfold setAll
  rw [List.foldl_append]

theorem lookup_erase_eq (k' : κ) : (d.erase k').lookup k = if k = k' then none else d.lookup k := by
  by_cases h : k = k'
  · subst h
    rw [if_pos rfl]
    exact AList.lookup_erase k d
  · rw [if_neg h]
    exact AList.lookup_erase_ne h

theorem lookup_popAll_eq (ks : List κ) : (popAll ks d).lookup k = if k ∈ ks then none else d.lookup k := by
  induction ks generalizing d with
  | nil => rfl
  | cons x xs ih =>
    unfold popAll at ih ⊢
    rw [List.foldl_cons,ih,lookup_erase_eq]
    by_cases hx : k = x
    · simp [hx]
    · simp [hx]

theorem lookup_popAll {ks : List κ} :
    (popAll ks d).lookup k = some v ↔ k ∉ ks ∧ d.lookup k = some v := by
  rw [lookup_popAll_eq]
  split
  · rename_i hk
    simp [hk]
  · rename_i hk
    simp [hk]

theorem lookup_keep {p : ν → Bool} : (keep p d).lookup k = some v ↔ p v = true ∧ d.lookup k = some v := by
  have hkeep : (keep p d).lookup k = some v ↔ (⟨k,v⟩ : Sigma fun _ : κ => ν) ∈ (keep p d).entries :=
    AList.mem_lookup_iff
  have hall : d.lookup k = some v ↔ (⟨k,v⟩ : Sigma fun _ : κ => ν) ∈ d.entries := AList.mem_lookup_iff
  rw [hkeep,hall]
  unfold keep
  rw [List.mem_filter]
  exact and_comm

theorem nodup_values {f : ν → κ} (h : ∀ k v, d.lookup k = some v → f v = k) :
    ((values d).map f).Nodup := by
  have hkeys : (values d).map f = d.keys := by
    unfold values AList.keys List.keys
    rw [List.map_map]
    refine List.map_congr_left ?_
    intro e he
    exact h e.1 e.2 (AList.mem_lookup_iff.mpr he)
  rw [hkeys]
  exact d.keys_nodup

end Collections
