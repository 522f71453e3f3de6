import Tag2now.Caching.Coherence
import Tag2now.Community.Detail
import Tag2now.Idempotency.Store

/-! # The writes behind a cached post

A post is fetched by two statements, its row and its comments; each write changes what one
of them finds.
-/
namespace Tag2now.Community
open ReadCommitted

structure PostEdit where
  title : String
  body : String
  postType : String
  characters : List String
  youtubeVideoId : Option String
  title_length : title.length ≤ 100
  body_length : body.length ≤ 1000
  characters_length : characters.length ≤ maxPostCharacters

def editPost (edit : PostEdit) (post : Post) : Post where
  id := post.id
  author := post.author
  title := edit.title
  body := edit.body
  postType := edit.postType
  characters := edit.characters
  youtubeVideoId := edit.youtubeVideoId
  thumbsUp := post.thumbsUp
  thumbsDown := post.thumbsDown
  createdAt := post.createdAt
  title_length := edit.title_length
  body_length := edit.body_length
  characters_length := edit.characters_length

/-- A write, with what the call decided on. -/
inductive BoardWrite
  | updatePost (postId : ℕ) (edit : PostEdit)
  | createComment (comment : Comment)
  | deleteComment (postId commentId : ℕ) (now : ℤ)
  | addThumb (postId : ℕ) (up down : ℤ)
  | deletePost (postId : ℕ)

def BoardWrite.postId : BoardWrite → ℕ
  | .updatePost postId _ => postId
  | .createComment comment => comment.postId
  | .deleteComment postId _ _ => postId
  | .addThumb postId _ _ => postId
  | .deletePost postId => postId

/-- A comment on the post. It was live when it was checked, and may be deleted since. -/
def IsOn (db : Board) (postId commentId : ℕ) : Prop :=
  ∃ comment, db.comments.get? commentId = some comment ∧ comment.postId = postId

/-- A comment on the post that is no reply. -/
def IsHead (db : Board) (postId commentId : ℕ) : Prop :=
  ∃ comment, db.comments.get? commentId = some comment ∧ comment.postId = postId ∧ comment.parentId = none

/-- What a write that commits does. -/
def Commits (write : BoardWrite) (db db' : Board) : Prop :=
  (db.posts.get? write.postId).isSome ∧ match write with
  | .updatePost postId edit => db' = { db with posts := db.posts.modify postId (editPost edit) fun _ => rfl }
  | .createComment comment => (∀ parentId, comment.parentId = some parentId → IsHead db comment.postId parentId) ∧
      comment.deletedAt = none ∧ db.comments.get? comment.id = none ∧
      db' = { db with comments := db.comments.insert comment }
  | .deleteComment postId commentId now => IsOn db postId commentId ∧
      db' = { db with comments := db.comments.modify commentId (fun c =>
        { c with deletedAt := some now }) fun _ => rfl }
  | .addThumb postId up down =>
      db' = { db with
        posts := db.posts.modify postId (fun p => { p with thumbsUp := up, thumbsDown := down }) fun _ => rfl }
  | .deletePost postId => db'.posts = db.posts.delete postId ∧
      ∀ c, c ∈ db'.comments.rows ↔ c ∈ db.comments.rows ∧ c.postId ≠ postId

inductive CommunityError
  | postNotFound (message : String)
  | commentNotFound (message : String)
  | nestingDepth (message : String)
  | ownership (message : String)
  | noticeAdminOnly (message : String)
  | alreadyVoted (message : String)
  | key (error : Idempotency.KeyError)
  /-- A constraint of the database. -/
  | integrity
  deriving DecidableEq

def postNotFound : CommunityError := .postNotFound "Post not found"

/-- A post's comments in the order of their making; those made at one instant may come in any order. -/
def postComments (db : Board) (postId : ℕ) (comments : List Comment) : Prop :=
  comments.Perm (db.comments.rows.filter fun c => c.postId = postId) ∧
    comments.Pairwise fun c d => c.createdAt ≤ d.createdAt

def postKey (postId : ℕ) : String := "community:post:" ++ toString postId

theorem postKey_injective : Function.Injective postKey := by
  intro a b h
  exact toString_nat_injective ((String.append_right_inj _).mp h)

/-- The row first, and with a row the comments. -/
def Asks (postId : ℕ) : List Board → Prop
  | [] => True
  | [db] => (db.posts.get? postId).isSome
  | _ => False

def Gives (postId : ℕ) : List Board → Except CommunityError PostDetail → Prop
  | [db],.error e => db.posts.get? postId = none ∧ e = postNotFound
  | [db₁,db₂],.ok detail => ∃ post comments, db₁.posts.get? postId = some post ∧
      postComments db₂ postId comments ∧ detail = postDetail post comments
  | _,_ => False

/-- The statement whose answer the write changes. -/
def BoardWrite.parts : BoardWrite → List ℕ
  | .updatePost .. => [0]
  | .createComment .. => [1]
  | .deleteComment .. => [1]
  | .addThumb .. => [0]
  | .deletePost .. => [0,1]

/-- A statement that a write is not counted under finds what it found before. -/
theorem Commits.unchanged {write : BoardWrite} {db db' : Board} (h : Commits write db db') :
    (0 ∉ write.parts → db'.posts = db.posts) ∧ (1 ∉ write.parts → db'.comments = db.comments) := by
  obtain ⟨_,h⟩ := h
  cases write with
  | updatePost postId edit =>
    subst h
    exact ⟨fun hparts => absurd (List.mem_singleton_self 0) hparts,fun _ => rfl⟩
  | createComment comment =>
    obtain ⟨_,_,_,rfl⟩ := h
    exact ⟨fun _ => rfl,fun hparts => absurd (List.mem_singleton_self 1) hparts⟩
  | deleteComment postId commentId now =>
    obtain ⟨_,rfl⟩ := h
    exact ⟨fun _ => rfl,fun hparts => absurd (List.mem_singleton_self 1) hparts⟩
  | addThumb postId up down =>
    subst h
    exact ⟨fun hparts => absurd (List.mem_singleton_self 0) hparts,fun _ => rfl⟩
  | deletePost postId =>
    exact ⟨fun hparts => absurd (by simp [BoardWrite.parts]) hparts,
      fun hparts => absurd (by simp [BoardWrite.parts]) hparts⟩

/-- A post read through the cache, and the board's other commits. -/
def postSource : Coherence.Source String ℕ Board BoardWrite CommunityError PostDetail where
  key := postKey
  asks := Asks
  gives := Gives
  target := BoardWrite.postId
  parts := BoardWrite.parts
  effect := Commits
  other _ _ := True
  key_injective := postKey_injective

end Tag2now.Community
