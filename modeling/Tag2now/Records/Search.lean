import Tag2now.Collections.Patterns
import Tag2now.Records.Listing

/-! # Searching matches by name

The query is typed text, in which nothing is a wildcard: a match is found by what stands in a
name of either player, in whatever case.
-/
namespace Tag2now.Records
open Patterns

/-- The marks of LIKE, with the escape character the search passes. -/
def likeMarks : Marks Char := ⟨'%','_','\\'⟩

/-- What PostgreSQL documents of ILIKE: LIKE of the name and the pattern with the case of each character folded,
where no character but a mark is folded to one. -/
structure Caseless (fold : Char → Char) (ilike : ILike) : Prop where
  fixed : ∀ c, likeMarks.Special c → fold c = c
  special : ∀ c, likeMarks.Special (fold c) → likeMarks.Special c
  like : ∀ name pattern ts, tokens likeMarks (pattern.toList.map fold) = some ts →
    ilike name pattern '\\' = reads ts (name.toList.map fold)

/-- The query stands in one of the names, but for the case. -/
def Named (fold : Char → Char) (query : String) (names : List (Option String)) : Prop :=
  ∃ name, some name ∈ names ∧ query.toList.map fold <:+: name.toList.map fold

section
variable {fold : Char → Char} {ilike : ILike} {npid : Option String} {s : Snapshot}

/-- The backslashes are escaped first, so that none of those that escape is escaped itself. -/
theorem toList_escapeLike (text : String) : (escapeLike text).toList = escape likeMarks text.toList := by
  unfold escapeLike replaceChar
  simp only [String.toList_ofList]
  induction text.toList with
  | nil => rfl
  | cons c cs ih =>
    simp only [List.flatMap_cons,List.flatMap_append,escape] at ih ⊢
    rw [ih]
    congr 1
    by_cases hescape : c = '\\'
    · subst hescape
      decide
    by_cases hany : c = '%'
    · subst hany
      decide
    by_cases hone : c = '_'
    · subst hone
      decide
    simp [Marks.Special,likeMarks,hescape,hany,hone]

/-- The pattern of a query is read as the query's characters, with anything before and behind. -/
theorem tokens_pattern (h : Caseless fold ilike) (query : String) :
    tokens likeMarks (("%" ++ escapeLike query ++ "%").toList.map fold) = some (within (query.toList.map fold)) := by
  have hany : fold '%' = '%' := h.fixed '%' (.inl rfl)
  have hmarks : likeMarks.any ≠ likeMarks.escape := by decide
  have hpercent : "%".toList = ['%'] := rfl
  rw [← tokens_within hmarks,← escape_map h.fixed h.special,← toList_escapeLike]
  simp [likeMarks,hany,hpercent]

theorem Caseless.contains (h : Caseless fold ilike) (name query : String) :
    ilike name ("%" ++ escapeLike query ++ "%") '\\' = true ↔ query.toList.map fold <:+: name.toList.map fold := by
  rw [h.like _ _ _ (tokens_pattern h query),reads_iff,reads_within]

theorem satisfies_named (h : Caseless fold ilike) (query : String) (m : MatchRow) :
    satisfies ilike npid (some query) s.rooms m = true ↔
      (∀ n ∈ npid, m.p1Npid = n ∨ m.p2Npid = some n) ∧ Named fold query (namesOf s.rooms m) := by
  have hplayer : some m.p1Npid ∈ namesOf s.rooms m := List.mem_cons_self
  have hnames : ((namesOf s.rooms m).any fun name => name.any fun name =>
      ilike name ("%" ++ escapeLike query ++ "%") '\\') = true ↔ Named fold query (namesOf s.rooms m) := by
    simp only [List.any_eq_true,Option.any_eq_true,h.contains,Named]
    constructor
    · rintro ⟨-,hmem,name,rfl,hin⟩
      exact ⟨name,hmem,hin⟩
    · rintro ⟨name,hmem,hin⟩
      exact ⟨some name,hmem,name,rfl,hin⟩
  have hnpid : (npid.all fun npid => decide (m.p1Npid = npid ∨ m.p2Npid = some npid)) = true ↔
      ∀ n ∈ npid, m.p1Npid = n ∨ m.p2Npid = some n := by
    cases npid <;> simp
  rw [satisfies,Bool.and_eq_true,hnpid]
  by_cases hempty : query = ""
  · subst hempty
    have hin : Named fold "" (namesOf s.rooms m) := ⟨m.p1Npid,hplayer,by simp⟩
    simp [hin]
  · simp [hempty,hnames]

end

/-- A search lists the matches that have the query in a name, and a longer query lists no other ones. -/
theorem name_search_exact {fold : Char → Char} {ilike : ILike} (h : Caseless fold ilike) (npid : Option String)
    (query : String) (s : Snapshot) :
    (∀ id, id ∈ matchIds ilike npid (some query) s ↔ ∃ m ∈ s.db.matchRows.rows, m.id = id ∧
      (∀ n ∈ npid, m.p1Npid = n ∨ m.p2Npid = some n) ∧ Named fold query (namesOf s.rooms m)) ∧
    matchIds ilike npid (some "") s = matchIds ilike npid none s ∧
    ∀ longer : String, query.toList.map fold <:+: longer.toList.map fold →
      (matchIds ilike npid (some longer) s).Sublist (matchIds ilike npid (some query) s) := by
  refine ⟨?_,rfl,?_⟩
  · intro id
    simp only [mem_matchIds,satisfies_named h]
  · intro longer hlonger
    have hdescending (q : String) : (matchIds ilike npid (some q) s).Pairwise fun a b => b < a :=
      selected_descending none
    have hnodup : (matchIds ilike npid (some longer) s).Nodup := (hdescending longer).imp fun hlt => Nat.ne_of_gt hlt
    apply List.sublist_of_subperm_of_pairwise (List.subperm_of_subset hnodup ?_) (hdescending longer)
      (hdescending query)
    intro id
    simp only [mem_matchIds,satisfies_named h]
    rintro ⟨m,hm,hid,hplays,name,hname,hin⟩
    exact ⟨m,hm,hid,hplays,name,hname,hlonger.trans hin⟩

/-- ILIKE where only ASCII has case. -/
def asciiILike : ILike := fun name pattern escape =>
  ((tokens ⟨'%','_',escape⟩ (pattern.toList.map Char.toLower)).map (reads · (name.toList.map Char.toLower))).getD false

theorem asciiILike_caseless : Caseless Char.toLower asciiILike := by
  constructor
  · rintro c (rfl | rfl | rfl) <;> rfl
  · intro c hc
    by_cases hupper : 'A' ≤ c ∧ c ≤ 'Z'
    · -- no capital becomes a mark
      exfalso
      have hcode : c.toNat ∈ List.range' 65 26 := by
        have hA : 'A'.toNat = 65 := rfl
        have hZ : 'Z'.toNat = 90 := rfl
        simp only [Char.le_def,UInt32.le_iff_toNat_le,Char.toNat_val] at hupper
        rw [List.mem_range'_1]
        omega
      have hall : ∀ n ∈ List.range' 65 26, ¬ likeMarks.Special (Char.ofNat n).toLower := by decide
      exact hall c.toNat hcode (by rwa [Char.ofNat_toNat])
    · have hsame : c.toLower = c := dif_neg hupper
      rwa [hsame] at hc
  · intro name pattern ts hts
    have hmarks : (⟨'%','_','\\'⟩ : Marks Char) = likeMarks := rfl
    simp [asciiILike,hmarks,hts]

def underscored : MatchRow := ⟨3,0,none,"al_ice",none,.p1,some 1,none⟩

def searched : Snapshot := ⟨insertMatch underscored twoRecorded.db,.empty⟩

theorem name_search_exact_underscored : 3 ∈ matchIds asciiILike none (some "L_I") searched ∧
    (matchIds asciiILike none (some "AL_IC") searched).Sublist (matchIds asciiILike none (some "L_I") searched) := by
  obtain ⟨hfound,-,hlonger⟩ := name_search_exact asciiILike_caseless none "L_I" searched
  constructor
  · apply (hfound 3).mpr
    refine ⟨underscored,by decide,rfl,by simp,"al_ice",List.mem_cons_self,['a'],['c','e'],?_⟩
    decide
  · exact hlonger "AL_IC" ⟨['a'],['c'],by decide⟩

end Tag2now.Records
