import Mathlib.Data.List.Infix

/-! # Patterns with wildcards

One mark of a pattern stands for any items, one for a single item, and the escape takes away
what the item behind it would mean.
-/
namespace Patterns
variable {α : Type}

inductive Token (α : Type) where
  | any
  | one
  | lit (a : α)
deriving DecidableEq

/-! ## Matching -/

def Reads : List (Token α) → List α → Prop
  | [],xs => xs = []
  | .any :: ts,xs => ∃ ys zs, xs = ys ++ zs ∧ Reads ts zs
  | .one :: ts,xs => ∃ y ys, xs = y :: ys ∧ Reads ts ys
  | .lit a :: ts,xs => ∃ ys, xs = a :: ys ∧ Reads ts ys

def reads [DecidableEq α] : List (Token α) → List α → Bool
  | [],xs => xs.isEmpty
  | .any :: ts,xs => xs.tails.any (reads ts)
  | .one :: ts,xs => match xs with
    | [] => false
    | _ :: ys => reads ts ys
  | .lit a :: ts,xs => match xs with
    | [] => false
    | y :: ys => y = a && reads ts ys

theorem reads_iff [DecidableEq α] {ts : List (Token α)} {xs : List α} : reads ts xs = true ↔ Reads ts xs := by
  induction ts generalizing xs with
  | nil => simp [reads,Reads]
  | cons t ts ih =>
    cases t with
    | any =>
      simp only [reads,Reads,List.any_eq_true,List.mem_tails,ih]
      constructor
      · rintro ⟨zs,⟨ys,rfl⟩,hzs⟩
        exact ⟨ys,zs,rfl,hzs⟩
      · rintro ⟨ys,zs,rfl,hzs⟩
        exact ⟨zs,List.suffix_append ys zs,hzs⟩
    | one => cases xs <;> simp [reads,Reads,ih]
    | lit a => cases xs <;> simp [reads,Reads,ih,and_assoc]

theorem reads_append {ts us : List (Token α)} {xs : List α} :
    Reads (ts ++ us) xs ↔ ∃ ys zs, xs = ys ++ zs ∧ Reads ts ys ∧ Reads us zs := by
  induction ts generalizing xs with
  | nil => simp [Reads]
  | cons t ts ih =>
    cases t with
    | any =>
      simp only [List.cons_append,Reads,ih]
      constructor
      · rintro ⟨front,-,rfl,ys,zs,rfl,hys,hzs⟩
        exact ⟨front ++ ys,zs,by simp,⟨front,ys,rfl,hys⟩,hzs⟩
      · rintro ⟨-,zs,rfl,⟨front,ys,rfl,hys⟩,hzs⟩
        exact ⟨front,ys ++ zs,by simp,ys,zs,rfl,hys,hzs⟩
    | one =>
      simp only [List.cons_append,Reads,ih]
      constructor
      · rintro ⟨y,-,rfl,ys,zs,rfl,hys,hzs⟩
        exact ⟨y :: ys,zs,by simp,⟨y,ys,rfl,hys⟩,hzs⟩
      · rintro ⟨-,zs,rfl,⟨y,ys,rfl,hys⟩,hzs⟩
        exact ⟨y,ys ++ zs,by simp,ys,zs,rfl,hys,hzs⟩
    | lit a =>
      simp only [List.cons_append,Reads,ih]
      constructor
      · rintro ⟨-,rfl,ys,zs,rfl,hys,hzs⟩
        exact ⟨a :: ys,zs,by simp,⟨ys,rfl,hys⟩,hzs⟩
      · rintro ⟨-,zs,rfl,⟨ys,rfl,hys⟩,hzs⟩
        exact ⟨ys ++ zs,by simp,ys,zs,rfl,hys,hzs⟩

theorem reads_lits {cs xs : List α} : Reads (cs.map .lit) xs ↔ xs = cs := by
  induction cs generalizing xs with
  | nil => simp [Reads]
  | cons c cs ih => simp [Reads,ih]

/-- The items first, then anything. -/
def before (cs : List α) : List (Token α) := cs.map .lit ++ [.any]

theorem reads_before {cs xs : List α} : Reads (before cs) xs ↔ cs <+: xs := by
  simp only [before,reads_append,reads_lits,Reads]
  constructor
  · rintro ⟨ys,zs,rfl,rfl,-⟩
    exact List.prefix_append ys zs
  · rintro ⟨zs,rfl⟩
    exact ⟨cs,zs,rfl,rfl,zs,[],by simp,rfl⟩

/-- The items themselves, anything before and behind. -/
def within (cs : List α) : List (Token α) := .any :: (cs.map .lit ++ [.any])

theorem reads_within {cs xs : List α} : Reads (within cs) xs ↔ cs <:+: xs := by
  simp only [within,Reads,reads_append,reads_lits]
  constructor
  · rintro ⟨front,-,rfl,-,-,rfl,rfl,back,-,rfl,rfl⟩
    exact ⟨front,back,by simp⟩
  · rintro ⟨front,back,rfl⟩
    exact ⟨front,cs ++ back,by simp,cs,back,rfl,rfl,back,[],by simp,rfl⟩

/-! ## Reading a pattern -/

/-- The items that do not stand for themselves. -/
structure Marks (α : Type) where
  any : α
  one : α
  escape : α

def Marks.Special (k : Marks α) (a : α) : Prop := a = k.any ∨ a = k.one ∨ a = k.escape

variable [DecidableEq α] (k : Marks α)

instance (a : α) : Decidable (k.Special a) := inferInstanceAs (Decidable (_ ∨ _ ∨ _))

/-- Nothing where the pattern ends in its escape. -/
def tokens : List α → Option (List (Token α))
  | [] => some []
  | a :: cs =>
    if a = k.escape then
      match cs with
      | [] => none
      | c :: cs => (tokens cs).map (.lit c :: ·)
    else (tokens cs).map ((if a = k.any then .any else if a = k.one then .one else .lit a) :: ·)

def escape (cs : List α) : List α := cs.flatMap fun c => if k.Special c then [k.escape,c] else [c]

variable {k}

theorem tokens_cons {a : α} (ha : a ≠ k.escape) (cs : List α) : tokens k (a :: cs) =
    (tokens k cs).map ((if a = k.any then .any else if a = k.one then .one else .lit a) :: ·) := by
  rw [tokens.eq_def]
  simp [ha]

theorem tokens_escape_append (cs rest : List α) :
    tokens k (escape k cs ++ rest) = (tokens k rest).map (cs.map .lit ++ ·) := by
  induction cs with
  | nil => simp [escape]
  | cons c cs ih =>
    have htail : (tokens k (escape k cs ++ rest)).map (.lit c :: ·) =
        (tokens k rest).map ((c :: cs).map .lit ++ ·) := by
      rw [ih,Option.map_map]
      simp only [List.map_cons,List.cons_append,Function.comp_def]
    rw [← htail]
    by_cases hc : k.Special c
    · have hcons : escape k (c :: cs) = k.escape :: c :: escape k cs := by simp [escape,hc]
      simp [hcons,tokens]
    · have hcons : escape k (c :: cs) = c :: escape k cs := by simp [escape,hc]
      simp only [Marks.Special,not_or] at hc
      simp [hcons,tokens_cons hc.2.2,hc]

/-- Escaped items between two marks that stand for anything are read as these items. -/
theorem escape_eq_self {cs : List α} (h : ∀ c ∈ cs, ¬k.Special c) : escape k cs = cs := by
  induction cs with
  | nil => rfl
  | cons c cs ih =>
    have hrest := ih fun c hc => h c (List.mem_cons_of_mem _ hc)
    simp only [escape,List.flatMap_cons,if_neg (h c List.mem_cons_self)] at hrest ⊢
    rw [hrest]
    rfl

theorem tokens_before (hany : k.any ≠ k.escape) {cs : List α} (h : ∀ c ∈ cs, ¬k.Special c) :
    tokens k (cs ++ [k.any]) = some (before cs) := by
  have hnil : tokens k ([] : List α) = some [] := by simp [tokens]
  have hcs := tokens_escape_append (k := k) cs [k.any]
  rw [escape_eq_self h] at hcs
  simp [hcs,tokens_cons hany,hnil,before]

theorem tokens_within (hany : k.any ≠ k.escape) (cs : List α) :
    tokens k (k.any :: (escape k cs ++ [k.any])) = some (within cs) := by
  have hnil : tokens k [] = some [] := rfl
  simp [tokens_cons hany,tokens_escape_append,hnil,within]

/-- A fold that leaves the marks alone, and takes nothing else to them, commutes with escaping. -/
theorem escape_map {fold : α → α} (hfixed : ∀ a, k.Special a → fold a = a)
    (hspecial : ∀ a, k.Special (fold a) → k.Special a) (cs : List α) :
    (escape k cs).map fold = escape k (cs.map fold) := by
  have hescape : fold k.escape = k.escape := hfixed _ (.inr (.inr rfl))
  induction cs with
  | nil => simp [escape]
  | cons c cs ih =>
    simp only [escape,List.flatMap_cons,List.map_append,List.map_cons] at ih ⊢
    rw [ih]
    by_cases hc : k.Special c
    · simp [hc,hescape,hfixed c hc]
    · have hfold : ¬ k.Special (fold c) := fun h => hc (hspecial c h)
      simp [hc,hfold]

end Patterns
