import Mathlib.Data.List.Nodup

/-! # Tables with a primary key

A table is its rows in insertion order, together with the proof that no two rows
share a key. An update is a function on rows that leaves the key alone, so an
`UPDATE .. WHERE` is one function with a condition in it.
-/
namespace ReadCommitted
variable {κ α : Type} [DecidableEq κ] {key : α → κ}

structure Table (key : α → κ) where
  rows : List α
  nodup : (rows.map key).Nodup

namespace Table

omit [DecidableEq κ] in
@[ext] theorem ext {t u : Table key} (h : t.rows = u.rows) : t = u := by
  cases t
  cases u
  cases h
  rfl

def empty : Table key := ⟨[],List.nodup_nil⟩

def get? (t : Table key) (k : κ) : Option α := t.rows.find? (fun a => key a = k)

/-- Insert a row, or leave the table alone when its key is taken. -/
def insert (t : Table key) (a : α) : Table key :=
  if h : key a ∈ t.rows.map key then t
  else ⟨t.rows ++ [a],by simpa [List.nodup_append,t.nodup] using h⟩

/-- Rewrite every row by a function that keeps the key. -/
def update (t : Table key) (f : α → α) (hf : ∀ a, key (f a) = key a) : Table key :=
  ⟨t.rows.map f,by
    have h : key ∘ f = key := funext hf
    rw [List.map_map,h]
    exact t.nodup⟩

def modify (t : Table key) (k : κ) (f : α → α) (hf : ∀ a, key (f a) = key a) : Table key :=
  t.update (fun a => if key a = k then f a else a) (by
    intro a
    split
    · exact hf a
    · rfl)

def delete (t : Table key) (k : κ) : Table key :=
  ⟨t.rows.filter fun a => key a ≠ k,t.nodup.sublist (List.filter_sublist.map key)⟩

/-- Delete the rows that `p` picks. -/
def discard (t : Table key) (p : α → Bool) : Table key :=
  ⟨t.rows.filter fun a => !p a,t.nodup.sublist (List.filter_sublist.map key)⟩

variable {t : Table key}

theorem mem_delete {k : κ} {a : α} : a ∈ (t.delete k).rows ↔ a ∈ t.rows ∧ key a ≠ k := by
  simp [delete]

theorem key_of_get? {k : κ} {a : α} (h : t.get? k = some a) : key a = k := by
  simpa using List.find?_some h

theorem mem_of_get? {k : κ} {a : α} (h : t.get? k = some a) : a ∈ t.rows :=
  List.mem_of_find?_eq_some h

theorem get?_of_mem {a : α} (h : a ∈ t.rows) : t.get? (key a) = some a := by
  have hn := t.nodup
  unfold get?
  generalize t.rows = rows at h hn
  induction rows with
  | nil => simp at h
  | cons b rows ih =>
    simp only [List.map_cons,List.nodup_cons] at hn
    rcases List.mem_cons.mp h with rfl | h
    · simp
    · have hne : key b ≠ key a := by
        intro he
        exact hn.1 (he ▸ List.mem_map_of_mem h)
      simpa [hne] using ih h hn.2

theorem eq_of_key {a b : α} (ha : a ∈ t.rows) (hb : b ∈ t.rows) (h : key a = key b) : a = b := by
  have hget := get?_of_mem ha
  rw [h,get?_of_mem hb] at hget
  exact (Option.some.inj hget).symm

theorem get?_eq_none_iff {k : κ} : t.get? k = none ↔ ∀ a ∈ t.rows, key a ≠ k := by
  simp [get?]

theorem insert_rows {a : α} (h : t.get? (key a) = none) : (t.insert a).rows = t.rows ++ [a] := by
  have hn : key a ∉ t.rows.map key := by simpa [get?] using h
  simp only [insert,dif_neg hn]

omit [DecidableEq κ] in
@[simp] theorem update_rows (f : α → α) (hf) : (t.update f hf).rows = t.rows.map f := rfl

@[simp] theorem get?_empty (k : κ) : (empty : Table key).get? k = none := rfl

theorem get?_insert {a : α} (h : t.get? (key a) = none) (k : κ) :
    (t.insert a).get? k = if k = key a then some a else t.get? k := by
  unfold get? at h ⊢
  rw [insert_rows (by simpa [get?] using h),List.find?_append]
  by_cases hk : k = key a
  · subst hk
    simp [h]
  · have hk' : key a ≠ k := fun h => hk h.symm
    simp [hk,hk']

@[simp] theorem get?_update (f : α → α) (hf) (k : κ) :
    (t.update f hf).get? k = (t.get? k).map f := by
  have hkey : (fun a => decide (key a = k)) ∘ f = fun a => decide (key a = k) := by
    funext a
    simp [hf]
  simp only [get?,update_rows,List.find?_map,hkey]

@[simp] theorem get?_modify (k k' : κ) (f : α → α) (hf) :
    (t.modify k f hf).get? k' = if k' = k then (t.get? k').map f else t.get? k' := by
  unfold modify
  rw [get?_update]
  cases h : t.get? k' with
  | none => simp
  | some a =>
    have ha := key_of_get? h
    subst ha
    by_cases hk : key a = k <;> simp [hk]

theorem mem_insert {a : α} (h : t.get? (key a) = none) {b : α} :
    b ∈ (t.insert a).rows ↔ b ∈ t.rows ∨ b = a := by simp [insert_rows h]

theorem mem_of_insert {a b : α} (h : b ∈ (t.insert a).rows) : b ∈ t.rows ∨ b = a := by
  unfold insert at h
  split at h
  · exact .inl h
  · simpa using h

omit [DecidableEq κ] in
theorem mem_discard {p : α → Bool} {a : α} : a ∈ (t.discard p).rows ↔ a ∈ t.rows ∧ p a = false := by
  simp [discard]

theorem get?_discard (p : α → Bool) (k : κ) : (t.discard p).get? k = (t.get? k).filter fun a => !p a := by
  cases h : (t.discard p).get? k with
  | none =>
    rw [get?_eq_none_iff] at h
    cases ht : t.get? k with
    | none => rfl
    | some a =>
      have hp : p a = true := by
        by_contra hp
        exact h a (mem_discard.mpr ⟨mem_of_get? ht,by simpa using hp⟩) (key_of_get? ht)
      simp [Option.filter,hp]
  | some a =>
    obtain ⟨ha,hp⟩ := mem_discard.mp (mem_of_get? h)
    rw [← key_of_get? h,get?_of_mem ha]
    simp [Option.filter,hp]

theorem get?_delete (k k' : κ) : (t.delete k).get? k' = if k' = k then none else t.get? k' := by
  cases h : (t.delete k).get? k' with
  | none =>
    rw [get?_eq_none_iff] at h
    split
    · rfl
    · rename_i hne
      rw [eq_comm,get?_eq_none_iff]
      intro a ha hk
      exact h a (mem_delete.mpr ⟨ha,fun hkey => hne (hk.symm.trans hkey)⟩) hk
  | some a =>
    obtain ⟨ha,hne⟩ := mem_delete.mp (mem_of_get? h)
    have hk := key_of_get? h
    rw [if_neg (hk ▸ hne),← hk,get?_of_mem ha]

theorem mem_modify {k : κ} {f : α → α} {hf} {b : α} :
    b ∈ (t.modify k f hf).rows ↔ ∃ a ∈ t.rows, (if key a = k then f a else a) = b := by
  simp [modify]

theorem modify_rows (k : κ) (f : α → α) (hf) :
    (t.modify k f hf).rows = t.rows.map (fun a => if key a = k then f a else a) := rfl

theorem modify_of_none {k : κ} {f : α → α} {hf} (h : t.get? k = none) : t.modify k f hf = t := by
  apply ext
  rw [modify_rows]
  have hsame : t.rows.map (fun a => if key a = k then f a else a) = t.rows.map id := by
    apply List.map_congr_left
    intro a ha
    exact if_neg (get?_eq_none_iff.mp h a ha)
  rw [hsame,List.map_id]

theorem delete_of_none {k : κ} (h : t.get? k = none) : t.delete k = t := by
  apply ext
  apply List.filter_eq_self.mpr
  intro a ha
  exact decide_eq_true (get?_eq_none_iff.mp h a ha)

end Table
end ReadCommitted
