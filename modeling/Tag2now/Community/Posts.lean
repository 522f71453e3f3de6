import Mathlib.Data.List.Dedup
import Mathlib.Data.List.Sort
import Tag2now.Transactions.Table

/-! # Posts and their listing

The board's tables and what the repository may answer for one page of them. Posts made
at the same instant may come in any order, and in another order each time.
-/
namespace Tag2now.Community
open ReadCommitted

/-- Pinned above the board and kept out of its list. -/
def noticePostType : String := "공지"

def maxPostCharacters : ℕ := 2

/-- A row of posts, with the table's checks. -/
structure Post where
  id : ℕ
  author : String
  title : String
  body : String
  postType : String
  characters : List String
  youtubeVideoId : Option String
  thumbsUp : ℤ
  thumbsDown : ℤ
  createdAt : ℤ
  title_length : title.length ≤ 100
  body_length : body.length ≤ 1000
  characters_length : characters.length ≤ maxPostCharacters
  deriving DecidableEq

structure Comment where
  id : ℕ
  postId : ℕ
  parentId : Option ℕ
  author : String
  body : String
  createdAt : ℤ
  deletedAt : Option ℤ
  body_length : body.length ≤ 1000
  deriving DecidableEq

structure Board where
  posts : Table Post.id
  comments : Table Comment.id

structure ListedPost where
  post : Post
  commentCount : ℕ
  deriving DecidableEq

/-- The post with its live comments counted. -/
def withCommentCount (db : Board) (post : Post) : ListedPost where
  post := post
  commentCount := (db.comments.rows.filter fun c => c.postId = post.id ∧ c.deletedAt = none).length

/-- An empty post type filters nothing, as an absent one. -/
def given (postType : Option String) : Option String := postType.filter (· ≠ "")

/-- Without a post type the list leaves the notices out. -/
def TypeMatches (postType : Option String) (t : String) : Prop :=
  match given postType with
  | none => t ≠ noticePostType
  | some u => t = u

instance (postType : Option String) (t : String) : Decidable (TypeMatches postType t) := by
  unfold TypeMatches
  cases given postType <;> infer_instance

/-- Every named character must be in the post. -/
def Matches (postType : Option String) (characters : List String) (post : Post) : Prop :=
  TypeMatches postType post.postType ∧ ∀ c ∈ characters, c ∈ post.characters

instance (postType : Option String) (characters : List String) (post : Post) :
    Decidable (Matches postType characters post) := inferInstanceAs (Decidable (_ ∧ _))

def matching (db : Board) (postType : Option String) (characters : List String) : List Post :=
  db.posts.rows.filter (Matches postType characters)

/-- One page of the matching posts, newest first, and how many there are in all. -/
def listPosts (db : Board) (page pageSize : ℕ) (postType : Option String) (characters : List String)
    (answer : List ListedPost × ℕ) : Prop :=
  ∃ rows : List Post, rows.Perm (matching db postType characters) ∧
    rows.Pairwise (fun p q => q.createdAt ≤ p.createdAt) ∧
    answer = (((rows.drop ((page - 1) * pageSize)).take pageSize).map (withCommentCount db),
      (matching db postType characters).length)

def newer (p q : Post) : Bool := q.createdAt ≤ p.createdAt

theorem newer_trans {p q r : Post} (hpq : newer p q) (hqr : newer q r) : newer p r := by
  simp only [newer,decide_eq_true_eq] at *
  omega

theorem newer_total (p q : Post) : (newer p q || newer q p) = true := by
  simp only [newer,Bool.or_eq_true,decide_eq_true_eq]
  omega

theorem listPosts_exists (db : Board) (page pageSize : ℕ) (postType : Option String)
    (characters : List String) : ∃ answer, listPosts db page pageSize postType characters answer := by
  have hsorted := List.pairwise_mergeSort (fun p q r => @newer_trans p q r) newer_total
    (matching db postType characters)
  exact ⟨_,(matching db postType characters).mergeSort newer,List.mergeSort_perm _ _,
    by simpa [newer] using hsorted,rfl⟩

theorem matches_congr {postType postType' : Option String} {characters characters' : List String}
    (htype : given postType = given postType') (hchars : ∀ c, c ∈ characters ↔ c ∈ characters') (post : Post) :
    Matches postType characters post ↔ Matches postType' characters' post := by
  unfold Matches TypeMatches
  simp only [htype,hchars]

theorem listPosts_congr {db : Board} {page pageSize : ℕ} {postType postType' : Option String}
    {characters characters' : List String} {answer : List ListedPost × ℕ}
    (htype : given postType = given postType') (hchars : ∀ c, c ∈ characters ↔ c ∈ characters') :
    listPosts db page pageSize postType characters answer ↔
      listPosts db page pageSize postType' characters' answer := by
  have hsame : matching db postType characters = matching db postType' characters' := by
    unfold matching
    refine List.filter_congr fun post _ => ?_
    simp only [matches_congr htype hchars post]
  unfold listPosts
  rw [hsame]

/-! ## Telling filters apart -/

def samplePost (t : String) (characters : List String) (h : characters.length ≤ maxPostCharacters) : Post :=
  ⟨1,"","","",t,characters,none,0,0,0,by decide,by decide,h⟩

def boardOf (post : Post) : Board := ⟨Table.empty.insert post,Table.empty⟩

theorem matching_boardOf (post : Post) (postType : Option String) (characters : List String) :
    matching (boardOf post) postType characters = if Matches postType characters post then [post] else [] := by
  unfold matching
  rw [show (boardOf post).posts.rows = [post] from Table.insert_rows rfl]
  by_cases hm : Matches postType characters post <;> simp [hm]

theorem listPosts_boardOf {post : Post} {postType : Option String} {characters : List String}
    (hm : Matches postType characters post) (pageSize : ℕ) : listPosts (boardOf post) 1 (pageSize + 1) postType
      characters ([withCommentCount (boardOf post) post],1) := by
  refine ⟨[post],?_,List.pairwise_singleton _ _,?_⟩ <;> rw [matching_boardOf,if_pos hm]
  simp

theorem total_boardOf {post : Post} {page pageSize : ℕ} {postType : Option String} {characters : List String}
    {answer : List ListedPost × ℕ} (h : listPosts (boardOf post) page pageSize postType characters answer) :
    answer.2 = if Matches postType characters post then 1 else 0 := by
  obtain ⟨rows,_,_,rfl⟩ := h
  change (matching (boardOf post) postType characters).length = _
  rw [matching_boardOf]
  split <;> rfl

theorem exists_type (postType : Option String) : ∃ t, TypeMatches postType t := by
  unfold TypeMatches
  cases given postType with
  | none => exact ⟨"",by decide⟩
  | some u => exact ⟨u,rfl⟩

/-- Different types list different types of post. -/
theorem exists_type_of_ne {t u : Option String} (h : given t ≠ given u) :
    ∃ s, ¬ (TypeMatches t s ↔ TypeMatches u s) := by
  have hone (v : String) : ∃ s, ¬ (s ≠ noticePostType ↔ s = v) := by
    by_cases hv : v = ""
    · exact ⟨"자유",by simp [hv,noticePostType]⟩
    · exact ⟨"",by simp [Ne.symm hv,noticePostType]⟩
  unfold TypeMatches
  cases ht : given t with
  | none =>
    cases hu : given u with
    | none => exact absurd (ht.trans hu.symm) h
    | some v => exact hone v
  | some v =>
    cases hu : given u with
    | none =>
      obtain ⟨s,hs⟩ := hone v
      exact ⟨s,fun hiff => hs hiff.symm⟩
    | some w =>
      have hne : v ≠ w := by
        rintro rfl
        exact h (ht.trans hu.symm)
      exact ⟨v,by simp [hne]⟩

/-- Filters that are not the same differ on some post. -/
theorem exists_post_of_ne {t u : Option String} {cs ds : List String} (hcs : cs.length ≤ maxPostCharacters)
    (hds : ds.length ≤ maxPostCharacters) (h : given t ≠ given u ∨ ∃ c, ¬ (c ∈ cs ↔ c ∈ ds)) :
    ∃ post, ¬ (Matches t cs post ↔ Matches u ds post) := by
  by_cases htype : given t = given u
  · obtain ⟨c,hc⟩ := h.resolve_left fun hne => hne htype
    obtain ⟨s,hs⟩ := exists_type t
    have hs' : TypeMatches u s := by
      unfold TypeMatches at hs ⊢
      rwa [← htype]
    by_cases hmem : c ∈ cs
    · refine ⟨samplePost s ds hds,fun hiff => ?_⟩
      have hm := hiff.mpr ⟨hs',fun _ hd => hd⟩
      exact hc ⟨fun _ => hm.2 c hmem,fun _ => hmem⟩
    · refine ⟨samplePost s cs hcs,fun hiff => ?_⟩
      have hm := hiff.mp ⟨hs,fun _ hd => hd⟩
      exact hc ⟨fun hcs => absurd hcs hmem,fun hd => hm.2 c hd⟩
  · obtain ⟨s,hs⟩ := exists_type_of_ne htype
    by_cases hts : TypeMatches t s
    · refine ⟨samplePost s cs hcs,fun hiff => ?_⟩
      have hm := hiff.mp ⟨hts,fun _ hd => hd⟩
      exact hs (iff_of_true hts hm.1)
    · refine ⟨samplePost s ds hds,fun hiff => hs (iff_of_false hts fun hu => ?_)⟩
      exact hts (hiff.mpr ⟨hu,fun _ hd => hd⟩).1

end Tag2now.Community
