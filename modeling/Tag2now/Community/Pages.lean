import Tag2now.Collections.Paging
import Tag2now.Community.Posts

/-! # The pages of the board

Each page is a query of its own, and posts of one instant may come in another order in each of
them. So the pages together are the board where none of them ends between two such posts.
-/
namespace Tag2now.Community
open Collections ReadCommitted

/-- No page ends between two matching posts of one instant. -/
def NoneCut (db : Board) (pageSize : ℕ) (postType : Option String) (characters : List String) : Prop :=
  ∀ post ∈ matching db postType characters, ∀ pages : ℕ,
    pages * pageSize ≤ (matching db postType characters).countP (fun p => post.createdAt < p.createdAt) ∨
      (matching db postType characters).countP (fun p => post.createdAt ≤ p.createdAt) ≤ pages * pageSize

def pageCount (db : Board) (pageSize : ℕ) (postType : Option String) (characters : List String) : ℕ :=
  ((matching db postType characters).length + pageSize - 1) / pageSize

/-- The pages from the first to the last list every matching post once. -/
def Covers (db : Board) (pageSize : ℕ) (postType : Option String) (characters : List String)
    (answers : ℕ → List ListedPost × ℕ) : Prop :=
  ((List.range' 1 (pageCount db pageSize postType characters)).flatMap fun page => (answers page).1).Perm
    ((matching db postType characters).map (withCommentCount db))

section
variable {db : Board} {pageSize : ℕ} {postType : Option String} {characters : List String}

def newest (post : Post) : ℤ := -post.createdAt

theorem noneCut_iff : NoneCut db pageSize postType characters ↔
    ∀ pages, CutsNoTie newest (matching db postType characters) (pages * pageSize) := by
  unfold NoneCut CutsNoTie newest
  simp only [Int.neg_lt_neg_iff,Int.neg_le_neg_iff]
  exact ⟨fun h pages post hpost => h post hpost pages,fun h post hpost pages => h pages post hpost⟩

theorem listPosts_iff {page : ℕ} {answer : List ListedPost × ℕ} :
    listPosts db (page + 1) pageSize postType characters answer ↔
      ∃ rows, SortedRows newest (matching db postType characters) rows ∧
        answer = ((pageAt pageSize page rows).map (withCommentCount db),(matching db postType characters).length) := by
  have hsorted (rows : List Post) : rows.Pairwise (fun p q => q.createdAt ≤ p.createdAt) ↔
      rows.Pairwise fun p q => newest p ≤ newest q := by
    unfold newest
    simp only [Int.neg_le_neg_iff]
  unfold listPosts
  constructor
  · rintro ⟨rows,hperm,hrows,rfl⟩
    exact ⟨rows,⟨hperm,(hsorted rows).mp hrows⟩,rfl⟩
  · rintro ⟨rows,hrows,rfl⟩
    exact ⟨rows,hrows.perm,(hsorted rows).mpr hrows.sorted,rfl⟩

theorem length_le_pageCount (hsize : 0 < pageSize) :
    (matching db postType characters).length ≤ pageCount db pageSize postType characters * pageSize := by
  unfold pageCount
  have hdiv := Nat.div_add_mod ((matching db postType characters).length + pageSize - 1) pageSize
  have hmod := Nat.mod_lt ((matching db postType characters).length + pageSize - 1) hsize
  rw [Nat.mul_comm] at hdiv
  omega

/-- The numbered pages as they are cut out of the rows of each query. -/
theorem flatMap_answers (rowsAt : ℕ → List Post) {answers : ℕ → List ListedPost × ℕ}
    (h : ∀ page, (answers (page + 1)).1 = (pageAt pageSize page (rowsAt page)).map (withCommentCount db)) (count : ℕ) :
    ((List.range' 1 count).flatMap fun page => (answers page).1) =
      ((List.range count).flatMap fun page => pageAt pageSize page (rowsAt page)).map (withCommentCount db) := by
  rw [List.range'_eq_map_range,List.flatMap_map,List.map_flatMap]
  simp only [Nat.add_comm 1,h]

theorem nodup_listed : ((matching db postType characters).map (withCommentCount db)).Nodup := by
  have hinj : Function.Injective (withCommentCount db) := fun p q h => congrArg ListedPost.post h
  have hposts : db.posts.rows.Nodup := db.posts.nodup.of_map
  exact (hposts.sublist List.filter_sublist).map hinj

end

/-- The pages list every matching post once, whatever the order of ties, just where none of them cuts a tie. -/
theorem list_posts_covers_iff (db : Board) {pageSize : ℕ} (hsize : 1 ≤ pageSize) (postType : Option String)
    (characters : List String) :
    (∀ answers : ℕ → List ListedPost × ℕ,
      (∀ page, 1 ≤ page → listPosts db page pageSize postType characters (answers page)) →
        Covers db pageSize postType characters answers) ↔ NoneCut db pageSize postType characters := by
  rw [noneCut_iff]
  constructor
  · intro h
    apply cutsNoTie_of_pages hsize (length_le_pageCount hsize)
    intro rowsAt hrows
    let answers (page : ℕ) : List ListedPost × ℕ :=
      ((pageAt pageSize (page - 1) (rowsAt (page - 1))).map (withCommentCount db),
        (matching db postType characters).length)
    have hanswers : ∀ page, 1 ≤ page → listPosts db page pageSize postType characters (answers page) := by
      intro page hpage
      obtain ⟨k,rfl⟩ := Nat.exists_eq_add_of_le' hpage
      exact listPosts_iff.mpr ⟨_,hrows _,rfl⟩
    have hcovers := h answers hanswers
    unfold Covers at hcovers
    rw [flatMap_answers rowsAt fun page => rfl] at hcovers
    exact (hcovers.nodup_iff.mpr nodup_listed).of_map
  · intro h answers hanswers
    have hrows (page : ℕ) := listPosts_iff.mp (hanswers (page + 1) (Nat.le_add_left 1 page))
    choose rowsAt hsorted hanswer using hrows
    unfold Covers
    rw [flatMap_answers rowsAt fun page => congrArg Prod.fst (hanswer page)]
    apply List.Perm.map
    have hpages := pages_perm hsorted h (pageCount db pageSize postType characters) (hsorted 0)
    rw [List.take_of_length_le] at hpages
    · exact hpages.trans (hsorted 0).perm
    · rw [(hsorted 0).perm.length_eq]
      exact length_le_pageCount hsize

/-! Two posts of one instant, each page of one post: both pages may list the same one. -/

def firstTwin : Post := samplePost "자유" [] (Nat.zero_le _)

def secondTwin : Post := { firstTwin with id := 2 }

def twinBoard : Board := ⟨(Table.empty.insert firstTwin).insert secondTwin,Table.empty⟩

theorem matching_twinBoard : matching twinBoard none [] = [firstTwin,secondTwin] := by decide

/-- The first query sorts one of them first, and any later query the other. -/
def twinRows : ℕ → List Post
  | 0 => [firstTwin,secondTwin]
  | _ => [secondTwin,firstTwin]

def twinAnswers (page : ℕ) : List ListedPost × ℕ :=
  ((pageAt 1 (page - 1) (twinRows (page - 1))).map (withCommentCount twinBoard),2)

theorem listPosts_twinBoard {page : ℕ} (hpage : 1 ≤ page) :
    listPosts twinBoard page 1 none [] (twinAnswers page) := by
  obtain ⟨k,rfl⟩ := Nat.exists_eq_add_of_le' hpage
  have hrows : SortedRows newest (matching twinBoard none []) (twinRows k) := by
    rw [matching_twinBoard]
    cases k with
    | zero => exact ⟨List.Perm.refl _,by decide⟩
    | succ k =>
      have hsorted : [secondTwin,firstTwin].Pairwise fun p q => newest p ≤ newest q := by decide
      exact ⟨List.Perm.swap firstTwin secondTwin [],hsorted⟩
  apply listPosts_iff.mpr
  refine ⟨_,hrows,?_⟩
  rw [matching_twinBoard]
  rfl

theorem list_posts_doubled : ¬ ∀ (db : Board) (pageSize : ℕ), 1 ≤ pageSize →
    ∀ (postType : Option String) (characters : List String) (answers : ℕ → List ListedPost × ℕ),
      (∀ page, 1 ≤ page → listPosts db page pageSize postType characters (answers page)) →
        Covers db pageSize postType characters answers := by
  intro h
  have hcovers := h twinBoard 1 (le_refl 1) none [] twinAnswers fun page hpage => listPosts_twinBoard hpage
  unfold Covers at hcovers
  rw [matching_twinBoard] at hcovers
  have hlost : withCommentCount twinBoard secondTwin ∈
      (List.range' 1 (pageCount twinBoard 1 none [])).flatMap fun page => (twinAnswers page).1 :=
    hcovers.mem_iff.mpr (by decide)
  revert hlost
  decide

theorem noneCut_twinBoard : NoneCut twinBoard 2 none [] := by
  intro post _ pages
  have hcount := List.countP_le_length (p := fun p => decide (post.createdAt ≤ p.createdAt))
    (l := matching twinBoard none [])
  rw [matching_twinBoard] at hcount ⊢
  rw [List.length_cons,List.length_singleton] at hcount
  omega

/-- On one page, the order of the two does not matter. -/
theorem list_posts_covers_iff_twins : NoneCut twinBoard 2 none [] ∧ ∀ answers : ℕ → List ListedPost × ℕ,
    (∀ page, 1 ≤ page → listPosts twinBoard page 2 none [] (answers page)) → Covers twinBoard 2 none [] answers :=
  ⟨noneCut_twinBoard,(list_posts_covers_iff twinBoard (Nat.le_succ 1) none []).mpr noneCut_twinBoard⟩

end Tag2now.Community
