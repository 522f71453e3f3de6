import Tag2now.Community.Posts
import Tag2now.Shared.Cache

/-! # The cached list of posts

The service answers a page from the cache, under a key it joins from the query's
parameters, or asks the repository. Two queries that share a key share an answer, so the
cached list is the plain one just where such queries are the same query.
-/
namespace Tag2now.Community
open ReadThrough

/-- What the router admits. -/
structure ListQuery where
  page : ℕ
  pageSize : ℕ
  postType : Option String
  characters : List String
  page_ge : 1 ≤ page
  pageSize_ge : 1 ≤ pageSize
  pageSize_le : pageSize ≤ 100
  characters_length : characters.length ≤ maxPostCharacters

/-- `sorted(set(..))`. -/
def sortedSet (names : List String) : List String := names.dedup.mergeSort fun a b => a ≤ b

/-- `s or 'all'`. -/
def orAll (s : String) : String := if s = "" then "all" else s

def listKey (page pageSize : ℕ) (postType : Option String) (team : List String) : String :=
  "community:posts:p" ++ toString page ++ ":s" ++ toString pageSize ++ ":t" ++ orAll (postType.getD "") ++
    ":c" ++ orAll ("+".intercalate team)

structure PostList where
  posts : List ListedPost
  total : ℕ
  page : ℕ
  pageSize : ℕ
  deriving Inhabited

namespace ListQuery

/-- A team is unordered. -/
def team (q : ListQuery) : List String := sortedSet q.characters

def key (q : ListQuery) : String := listKey q.page q.pageSize q.postType q.team

def answer (q : ListQuery) (found : List ListedPost × ℕ) : PostList := ⟨found.1,found.2,q.page,q.pageSize⟩

/-- The same page, page size, type and characters; an absent type and an empty one are the same. -/
structure Same (q₁ q₂ : ListQuery) : Prop where
  page : q₁.page = q₂.page
  pageSize : q₁.pageSize = q₂.pageSize
  postType : given q₁.postType = given q₂.postType
  characters : ∀ c, c ∈ q₁.characters ↔ c ∈ q₂.characters

end ListQuery

/-- One call of the service: its answer, and the cache it leaves. -/
def servedFrom (db : Board) (ttl : ℤ) (cache : DictCache PostList) (q : ListQuery) (answer : PostList)
    (cache' : DictCache PostList) : Prop :=
  ∃ now, match cache.get q.key now with
    | (some cached,dropped) => answer = cached ∧ cache' = dropped
    | (none,dropped) => ∃ found later, listPosts db q.page q.pageSize q.postType q.team found ∧
        answer = q.answer found ∧ cache' = dropped.set q.key answer later ttl

/-- The answers to queries one after another. -/
inductive Serving (db : Board) (ttl : ℤ) : DictCache PostList → List ListQuery → List PostList → Prop
  | nil {cache : DictCache PostList} : Serving db ttl cache [] []
  | cons {cache cache' : DictCache PostList} {q : ListQuery} {answer : PostList} {qs : List ListQuery}
      {answers : List PostList} : servedFrom db ttl cache q answer cache' → Serving db ttl cache' qs answers →
      Serving db ttl cache (q :: qs) (answer :: answers)

/-- What the repository gives for the query's own parameters, without the cache. -/
def Uncached (db : Board) (q : ListQuery) (answer : PostList) : Prop :=
  ∃ found, listPosts db q.page q.pageSize q.postType q.characters found ∧ answer = q.answer found

theorem mem_sortedSet {names : List String} {c : String} : c ∈ sortedSet names ↔ c ∈ names := by
  unfold sortedSet
  rw [List.mem_mergeSort,List.mem_dedup]

section Service
variable {db : Board} {ttl : ℤ} {cache cache' : DictCache PostList} {q q' : ListQuery} {answer : PostList}

theorem uncached_iff_team : Uncached db q answer ↔
    ∃ found, listPosts db q.page q.pageSize q.postType q.team found ∧ answer = q.answer found := by
  refine exists_congr fun found => and_congr_left fun _ => listPosts_congr rfl fun c => mem_sortedSet.symm

theorem servedFrom_iff : servedFrom db ttl cache q answer cache' ↔
    Fetch (dictCache PostList ttl) ListQuery.key (Uncached db) cache q answer cache' := by
  constructor
  · rintro ⟨now,h⟩
    split at h
    · rename_i cached dropped hget
      obtain ⟨rfl,rfl⟩ := h
      exact .hit ⟨now,hget⟩
    · rename_i dropped hget
      obtain ⟨found,later,hfound,hanswer,rfl⟩ := h
      exact .miss ⟨now,hget⟩ (uncached_iff_team.mpr ⟨found,hfound,hanswer⟩) ⟨later,rfl⟩
  · rintro (⟨⟨now,hget⟩⟩ | ⟨⟨now,hget⟩,hsource,⟨later,rfl⟩⟩)
    · refine ⟨now,?_⟩
      rw [hget]
      exact ⟨rfl,rfl⟩
    · obtain ⟨found,hfound,hanswer⟩ := uncached_iff_team.mp hsource
      refine ⟨now,?_⟩
      rw [hget]
      exact ⟨found,later,hfound,hanswer,rfl⟩

theorem serving_iff {qs : List ListQuery} {answers : List PostList} : Serving db ttl cache qs answers ↔
    Serves (dictCache PostList ttl) ListQuery.key (Uncached db) cache qs answers := by
  constructor
  · intro h
    induction h with
    | nil => exact .nil
    | cons hserved _ ih => exact .cons (servedFrom_iff.mp hserved) ih
  · intro h
    induction h with
    | nil => exact .nil
    | cons hfetch _ ih => exact .cons (servedFrom_iff.mpr hfetch) ih

theorem uncached_congr (h : q.Same q') (answer : PostList) : Uncached db q answer ↔ Uncached db q' answer := by
  unfold Uncached ListQuery.answer
  rw [h.page,h.pageSize]
  exact exists_congr fun found => and_congr_left fun _ => listPosts_congr h.postType h.characters

/-- Queries that answer alike on every board are the same. -/
theorem same_of_common (h : ∀ db, ∃ answer, Uncached db q answer ∧ Uncached db q' answer) : q.Same q' := by
  obtain ⟨answer,⟨found,_,hanswer⟩,⟨found',_,hanswer'⟩⟩ := h ⟨ReadCommitted.Table.empty,ReadCommitted.Table.empty⟩
  have hsame := hanswer.symm.trans hanswer'
  simp only [ListQuery.answer,PostList.mk.injEq] at hsame
  have hfilter : ¬ (given q.postType ≠ given q'.postType ∨ ∃ c, ¬ (c ∈ q.characters ↔ c ∈ q'.characters)) := by
    intro hne
    obtain ⟨post,hpost⟩ := exists_post_of_ne q.characters_length q'.characters_length hne
    obtain ⟨answer,⟨found,hfound,hanswer⟩,⟨found',hfound',hanswer'⟩⟩ := h (boardOf post)
    have htotal := congrArg PostList.total (hanswer.symm.trans hanswer')
    simp only [ListQuery.answer,total_boardOf hfound,total_boardOf hfound'] at htotal
    refine hpost ⟨fun hm => ?_,fun hm => ?_⟩ <;> by_contra hn <;> simp [hm,hn] at htotal
  push Not at hfilter
  exact ⟨hsame.2.2.1,hsame.2.2.2,hfilter.1,hfilter.2⟩

end Service

/-- From an empty cache, whatever the board and the times, every answer is the uncached one just
where queries of the sequence that share a key are the same query. -/
theorem serving_uncached_iff (qs : List ListQuery) :
    (∀ db ttl answers, Serving db ttl .empty qs answers → List.Forall₂ (Uncached db) qs answers) ↔
      ∀ q₁ ∈ qs, ∀ q₂ ∈ qs, q₁.key = q₂.key → q₁.Same q₂ := by
  constructor
  · intro h q₁ hq₁ q₂ hq₂ hkey
    refine same_of_common fun db => ?_
    refine (dictCache_lasting PostList Int.one_pos).common (fun q _ => ?_) (fun answers hserves => ?_)
      hq₁ hq₂ hkey
    · obtain ⟨found,hfound⟩ := listPosts_exists db q.page q.pageSize q.postType q.characters
      exact ⟨_,found,hfound,rfl⟩
    · exact h db 1 answers (serving_iff.mpr hserves)
  · intro h db ttl answers hserving
    refine (serving_iff.mp hserving).right (fun _ hq => hq) (sound_empty {q | q ∈ qs}) ?_
    exact fun q₁ hq₁ q₂ hq₂ hkey answer => (uncached_congr (h q₁ hq₁ q₂ hq₂ hkey) answer).mp

/-! The whole list, and the list of a type no post has. -/

def allPosts : ListQuery := ⟨1,20,none,[],by decide,by decide,by decide,by decide⟩
def typeAll : ListQuery := ⟨1,20,some "all",[],by decide,by decide,by decide,by decide⟩

def freePost : Post := samplePost "자유" [] (by decide)

/-- The board has one post, and it is of another type. -/
def wholeList : PostList := allPosts.answer ([withCommentCount (boardOf freePost) freePost],1)

theorem key_typeAll : typeAll.key = allPosts.key := by
  change listKey 1 20 (some "all") (sortedSet []) = listKey 1 20 none (sortedSet [])
  have hall : orAll ((some "all").getD "") = orAll ((none : Option String).getD "") := by decide
  unfold listKey
  rw [hall]

/-- They have one key, so the second is answered as the first. -/
theorem serving_typeAll : ¬ ∀ qs db ttl answers,
    Serving db ttl .empty qs answers → List.Forall₂ (Uncached db) qs answers := by
  intro h
  have hlist : listPosts (boardOf freePost) 1 20 none allPosts.team
      ([withCommentCount (boardOf freePost) freePost],1) :=
    listPosts_boardOf ⟨by decide,by simp [allPosts,ListQuery.team,sortedSet]⟩ 19
  have hfirst : servedFrom (boardOf freePost) 30 .empty allPosts wholeList
      (DictCache.empty.set allPosts.key wholeList 0 30) := ⟨0,_,0,hlist,rfl,rfl⟩
  have hsecond : servedFrom (boardOf freePost) 30 (DictCache.empty.set allPosts.key wholeList 0 30) typeAll
      wholeList (DictCache.empty.set allPosts.key wholeList 0 30) := by
    refine ⟨1,?_⟩
    rw [key_typeAll,DictCache.get,DictCache.set,Function.update_self]
    exact ⟨rfl,rfl⟩
  cases h [allPosts,typeAll] (boardOf freePost) 30 [wholeList,wholeList] (.cons hfirst (.cons hsecond .nil)) with
  | cons _ hrest =>
    cases hrest with
    | cons huncached _ =>
      obtain ⟨found,hfound,hanswer⟩ := huncached
      have htotal := total_boardOf hfound
      have hone : found.2 = 1 := (congrArg PostList.total hanswer).symm
      rw [hone] at htotal
      rw [if_neg (by decide)] at htotal
      cases htotal

end Tag2now.Community
