import Mathlib.Data.List.Nodup

/-! # Dictionaries in insertion order

Assigning to a key that is there keeps its place; a new key goes last.
-/
namespace Collections
variable {κ ν : Type}

section
variable [DecidableEq κ]

/-- `d[k] = v`. -/
def assign (k : κ) (v : ν) : List (κ × ν) → List (κ × ν)
  | [] => [(k,v)]
  | e :: es => if e.1 = k then (k,v) :: es else e :: assign k v es

theorem keys_assign (k : κ) (v : ν) (es : List (κ × ν)) : (assign k v es).map Prod.fst =
    if k ∈ es.map Prod.fst then es.map Prod.fst else es.map Prod.fst ++ [k] := by
  induction es with
  | nil => rfl
  | cons e es ih =>
    unfold assign
    by_cases h : e.1 = k
    · have hmem : k ∈ (e :: es).map Prod.fst := by simp [h]
      rw [if_pos h,if_pos hmem,List.map_cons,List.map_cons,h]
    · have hmem : k ∈ (e :: es).map Prod.fst ↔ k ∈ es.map Prod.fst := by simp [Ne.symm h]
      rw [if_neg h,List.map_cons,ih]
      simp only [hmem]
      split <;> rfl

theorem nodup_assign (k : κ) (v : ν) {es : List (κ × ν)} (h : (es.map Prod.fst).Nodup) :
    ((assign k v es).map Prod.fst).Nodup := by
  rw [keys_assign]
  split
  · exact h
  · rename_i hk
    exact h.append (List.nodup_singleton k) (by simpa using hk)

theorem mem_assign {k : κ} {v : ν} {es : List (κ × ν)} {e : κ × ν} (h : e ∈ assign k v es) : e = (k,v) ∨ e ∈ es := by
  induction es with
  | nil => exact .inl (List.mem_singleton.mp h)
  | cons d es ih =>
    unfold assign at h
    split at h
    · rcases List.mem_cons.mp h with rfl | hes
      · exact .inl rfl
      · exact .inr (List.mem_cons_of_mem _ hes)
    · rcases List.mem_cons.mp h with rfl | hes
      · exact .inr (List.mem_cons_self ..)
      · exact (ih hes).imp_right fun he => List.mem_cons_of_mem _ he

theorem assign_new {k : κ} {es : List (κ × ν)} (h : k ∉ es.map Prod.fst) (v : ν) : assign k v es = es ++ [(k,v)] := by
  induction es with
  | nil => rfl
  | cons e es ih =>
    rw [List.map_cons,List.mem_cons,not_or] at h
    unfold assign
    rw [if_neg (Ne.symm h.1),ih h.2]
    rfl

end

structure Ordered (κ ν : Type) where
  entries : List (κ × ν)
  nodup : (entries.map Prod.fst).Nodup

namespace Ordered

def empty : Ordered κ ν := ⟨[],List.nodup_nil⟩

def values (d : Ordered κ ν) : List ν := d.entries.map Prod.snd

variable [DecidableEq κ]

def set (d : Ordered κ ν) (k : κ) (v : ν) : Ordered κ ν := ⟨assign k v d.entries,nodup_assign k v d.nodup⟩

def update (d : Ordered κ ν) (es : List (κ × ν)) : Ordered κ ν := es.foldl (fun d e => d.set e.1 e.2) d

/-- A dictionary built of these entries in their order. -/
def ofList (es : List (κ × ν)) : Ordered κ ν := empty.update es

def get? (d : Ordered κ ν) (k : κ) : Option ν := (d.entries.find? fun e => e.1 = k).map Prod.snd

variable {d : Ordered κ ν} {k : κ} {v : ν}

theorem mem_of_get? (h : d.get? k = some v) : (k,v) ∈ d.entries := by
  unfold get? at h
  obtain ⟨e,hfound,rfl⟩ := Option.map_eq_some_iff.mp h
  have hkey : e.1 = k := by simpa using List.find?_some hfound
  exact hkey ▸ List.mem_of_find?_eq_some hfound

theorem get?_of_mem (h : (k,v) ∈ d.entries) : d.get? k = some v := by
  have hsome : (d.entries.find? fun e => e.1 = k).isSome := List.find?_isSome.mpr ⟨(k,v),h,by simp⟩
  obtain ⟨e,he⟩ := Option.isSome_iff_exists.mp hsome
  have hkey : e.1 = k := by simpa using List.find?_some he
  have hsame : e = (k,v) := List.inj_on_of_nodup_map d.nodup (List.mem_of_find?_eq_some he) h hkey
  unfold get?
  rw [he,hsame]
  rfl

theorem get?_eq_none_iff : d.get? k = none ↔ k ∉ d.entries.map Prod.fst := by
  unfold get?
  rw [Option.map_eq_none_iff,List.find?_eq_none]
  constructor
  · intro h hmem
    obtain ⟨e,he,hkey⟩ := List.mem_map.mp hmem
    exact h e he (decide_eq_true hkey)
  · intro h e he hkey
    exact h (List.mem_map.mpr ⟨e,he,of_decide_eq_true hkey⟩)

/-- A key stands for one entry at most. -/
theorem filter_key (k : κ) : (d.entries.filter fun e => e.1 = k).map Prod.snd = (d.get? k).toList := by
  have hentries {es : List (κ × ν)} (h : (es.map Prod.fst).Nodup) :
      (es.filter fun e => e.1 = k).map Prod.snd = ((es.find? fun e => e.1 = k).map Prod.snd).toList := by
    induction es with
    | nil => rfl
    | cons e es ih =>
      obtain ⟨hnew,hrest⟩ := List.nodup_cons.mp h
      by_cases hkey : e.1 = k
      · have hnone : es.filter (fun e => e.1 = k) = [] := by
          apply List.filter_eq_nil_iff.mpr
          intro e' he' hk
          exact hnew (hkey ▸ List.mem_map.mpr ⟨e',he',of_decide_eq_true hk⟩)
        simp [hkey,hnone]
      · simpa [hkey] using ih hrest
  exact hentries d.nodup

theorem get?_set (k' : κ) : (d.set k v).get? k' = if k' = k then some v else d.get? k' := by
  have hassign (es : List (κ × ν)) : ((assign k v es).find? fun e => e.1 = k').map Prod.snd =
      if k' = k then some v else (es.find? fun e => e.1 = k').map Prod.snd := by
    induction es with
    | nil =>
      by_cases h : k = k'
      · simp [assign,h]
      · simp [assign,h,Ne.symm h]
    | cons e es ih =>
      unfold assign
      by_cases hkey : e.1 = k
      · by_cases h : k' = k
        · simp [hkey,h]
        · simp [hkey,h,Ne.symm h]
      · by_cases h : e.1 = k'
        · have hne : k' ≠ k := fun hk => hkey (h.trans hk)
          simp [h,hne]
        · simpa [hkey,h] using ih
  exact hassign d.entries

theorem mem_update {es : List (κ × ν)} {e : κ × ν} (h : e ∈ (d.update es).entries) : e ∈ es ∨ e ∈ d.entries := by
  induction es generalizing d with
  | nil => exact .inr h
  | cons e' es ih =>
    rcases ih h with hes | hset
    · exact .inl (List.mem_cons_of_mem _ hes)
    · rcases mem_assign hset with rfl | hold
      · exact .inl (List.mem_cons_self ..)
      · exact .inr hold

theorem update_entries {es : List (κ × ν)} (h : (d.entries.map Prod.fst ++ es.map Prod.fst).Nodup) :
    (d.update es).entries = d.entries ++ es := by
  induction es generalizing d with
  | nil => exact (List.append_nil _).symm
  | cons e es ih =>
    have hnew : e.1 ∉ d.entries.map Prod.fst := by
      intro hmem
      exact (List.nodup_append.mp h).2.2 e.1 hmem e.1 List.mem_cons_self rfl
    have hset : (d.set e.1 e.2).entries = d.entries ++ [e] := assign_new hnew e.2
    have hrest : ((d.set e.1 e.2).entries.map Prod.fst ++ es.map Prod.fst).Nodup := by
      rw [hset,List.map_append,List.append_assoc]
      exact h
    have hupdate : d.update (e :: es) = (d.set e.1 e.2).update es := rfl
    rw [hupdate,ih hrest,hset,List.append_assoc]
    rfl

theorem ofList_entries {es : List (κ × ν)} (h : (es.map Prod.fst).Nodup) : (ofList es).entries = es :=
  update_entries h

theorem mem_ofList {es : List (κ × ν)} {e : κ × ν} (h : e ∈ (ofList es).entries) : e ∈ es :=
  (mem_update h).resolve_right List.not_mem_nil

end Ordered

end Collections
